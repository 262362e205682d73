import Mathlib.Data.List.Pairwise
import FirstTree.Lemmas.CodeSpans
import FirstTree.Lemmas.DocLinkScan
import FirstTree.Lib.MarkdownBlocks
import FirstTree.Lib.MarkdownInlines

/-!
# Where the document paths of a text are

The scanner walks over the lines of a text with a running offset. In a text that Markdown reads line by line as the scanner does, with
links and tags that its patterns match as a whole, every path it reports is where it says, in a line outside the fenced blocks,
and apart from the links and the tags of the line. The code span it reports with a path is one exactly when the pair of backtick
strings around the path is balanced: the scanner looks for the closing backticks as a substring and does not check that their
string ends there.
-/

namespace FirstTree

open DocLinkScan DelimiterRuns Utf16
open Markdown (Reading readDocument fenceAlone inlineLinks htmlTags isDefinition)

/-! ## The lines of a text -/

/-- A line of a text, by where it starts. -/
structure PlacedLine where
  start : Nat
  content : List UInt16

/-- Where a line stops. -/
def PlacedLine.stop (l : PlacedLine) : Nat := l.start + l.content.length

/-- A line without the carriage return that is left of its end. -/
def dropReturn (line : List UInt16) : List UInt16 := if line.getLast? = some carriageReturn then line.dropLast else line

/-- The lines of a text, as Markdown ends them: with a line feed, with a carriage return, or with both. -/
def markdownLines (offset : Nat) (line : List UInt16) : List UInt16 → List PlacedLine
  | [] => [⟨offset, line⟩]
  | c :: rest =>
    if c = lineFeed then ⟨offset, dropReturn line⟩ :: markdownLines (offset + line.length + 1) [] rest
    else if c = carriageReturn ∧ rest.head? ≠ some lineFeed then ⟨offset, line⟩ :: markdownLines (offset + line.length + 1) [] rest
    else markdownLines offset (line ++ [c]) rest

/-- The lines of a text, each with what it is in the document. -/
def document (text : List UInt16) : List (PlacedLine × Reading) :=
  readDocument PlacedLine.content .start (markdownLines 0 [] text)

/-- The lines among the pieces of a text. -/
def placeLines (offset : Nat) : List (List UInt16) → List PlacedLine
  | [] => []
  | piece :: pieces =>
    if isBreak piece then placeLines (offset + piece.length) pieces
    else ⟨offset, piece⟩ :: placeLines (offset + piece.length) pieces

/-- The lines of a text, as the scanner ends them. -/
def textLines (text : List UInt16) : List PlacedLine := placeLines 0 (splitBreaks [] text)

/-- The fence that the scanner takes to be open after a line. -/
def nextFence (fence : Option FenceState) (line : List UInt16) : Option FenceState :=
  match fence with
  | none => parseOpeningFence line
  | some opened => if isClosingFence line opened then none else some opened

/-- The lines outside the fences, as the scanner walks over them. -/
def outsideFences (fence : Option FenceState) : List PlacedLine → List PlacedLine
  | [] => []
  | l :: lines =>
    match fence with
    | some opened => outsideFences (nextFence (some opened) l.content) lines
    | none =>
      match parseOpeningFence l.content with
      | some opened => outsideFences (some opened) lines
      | none => l :: outsideFences none lines

/-- The lines that the scanner reads. -/
def readLines (text : List UInt16) : List PlacedLine :=
  (outsideFences none (textLines text)).filter fun l => ! isSkippedLine l.content

/-! ## What is to hold of a scan -/

/-- A reported path and the line it is in. -/
structure IsPathOf (l : PlacedLine) (m : BarePathMatch) : Prop where
  within : l.start ≤ m.start ∧ m.stop ≤ l.stop
  links : ∀ r ∈ inlineLinks l.content, m.stop ≤ l.start + r.1 ∨ l.start + r.2 ≤ m.start
  tags : ∀ r ∈ htmlTags l.content, m.stop ≤ l.start + r.1 ∨ l.start + r.2 ≤ m.start
  span : ∀ start stop, m.enclosingCodeSpan = some (start, stop) → start ≤ m.start ∧ m.stop ≤ stop ∧
    ∃ a b, start = l.start + a ∧ stop = l.start + b ∧ IsCodeSpan l.content a b

/-- The reported paths of a text are what they say, in order and disjoint, and each is in a line of the document that is no part of a
fenced block, no indented code and no definition of a link. -/
structure ScansDocTokens (text : List UInt16) (out : List BarePathMatch) : Prop where
  slices : ∀ m ∈ out, m.start < m.stop ∧ m.stop ≤ text.length ∧ (text.take m.stop).drop m.start = m.raw
  ordered : out.Pairwise fun m m' => m.stop ≤ m'.start
  lines : ∀ m ∈ out, ∃ r ∈ document text, r.2.kind = .other ∧ isDefinition r.2.inside = false ∧ IsPathOf r.1 m

/-! ## The condition -/

/-- Every carriage return stands before a line feed. -/
def returnsPaired : List UInt16 → Bool
  | [] => true
  | c :: text => (c ≠ carriageReturn || text.head? = some lineFeed) && returnsPaired text

/-- A path, by where it starts, lies in a range in part at least. -/
def Meets (p : Nat × List UInt16) (r : Nat × Nat) : Prop := p.1 < r.2 ∧ r.1 < p.1 + p.2.length

instance (p : Nat × List UInt16) (r : Nat × Nat) : Decidable (Meets p r) := inferInstanceAs (Decidable (_ ∧ _))

/-- A pattern matches a range as a whole, and no match of it that starts before stops in the range. -/
def MatchedWhole (pattern : Regex UInt16) (line : List UInt16) (r : Nat × Nat) : Prop :=
  lengthAt pattern (line.drop r.1) = some (r.2 - r.1) ∧
    ∀ s < r.1, ∀ n ∈ lengthAt pattern (line.drop s), s + n ≤ r.1 ∨ r.2 ≤ s + n

instance (pattern : Regex UInt16) (line : List UInt16) (r : Nat × Nat) : Decidable (MatchedWhole pattern line r) :=
  inferInstanceAs (Decidable (_ ∧ _))

/-- The document paths of a line, whether they are part of a link or a tag or not. -/
def docPaths (line : List UInt16) : List (Nat × List UInt16) :=
  (Scan.collect barePathAt 0 0 line).filter fun p => p.2 ≠ [] && ! isDomainLike p.2

/-- The links and the tags of a line that hold a document path are matched as a whole by the patterns for them. -/
structure PlainInlines (line : List UInt16) : Prop where
  links : ∀ p ∈ docPaths line, ∀ r ∈ inlineLinks line, Meets p r → MatchedWhole inlineMarkdownLink line r
  tags : ∀ p ∈ docPaths line, ∀ r ∈ htmlTags line, Meets p r → MatchedWhole htmlTag line r

instance (line : List UInt16) : Decidable (PlainInlines line) :=
  decidable_of_iff ((∀ p ∈ docPaths line, ∀ r ∈ inlineLinks line, Meets p r → MatchedWhole inlineMarkdownLink line r) ∧
      ∀ p ∈ docPaths line, ∀ r ∈ htmlTags line, Meets p r → MatchedWhole htmlTag line r)
    ⟨fun h => ⟨h.1, h.2⟩, fun h => ⟨h.links, h.tags⟩⟩

/-- A text that reads line by line: each line opens and closes the fences that it opens and closes on its own, indented code and
definitions are so without their containers, and the links and the tags around paths are plain. -/
structure PlainMarkdown (text : List UInt16) : Prop where
  returns : returnsPaired text = true
  fences : ∀ r ∈ document text, r.2.after = fenceAlone r.2.before r.1.content
  code : ∀ r ∈ document text, r.2.kind = .indentedCode → IsIndentedCode r.1.content
  definitions : ∀ r ∈ document text, isDefinition r.2.inside = true → IsReferenceDefinition r.1.content
  inlines : ∀ l ∈ readLines text, PlainInlines l.content

/-- In the lines that are read, a pair of backtick strings that the search makes around a path is balanced. -/
def BalancedAroundPaths (text : List UInt16) : Prop :=
  ∀ l ∈ readLines text, ∀ p ∈ barePaths l.content, ∀ q ∈ backtickPairs l.content, q.start ≤ p.1 → p.1 < q.stop →
    q.balanced = true

instance (text : List UInt16) : Decidable (BalancedAroundPaths text) := inferInstanceAs (Decidable (∀ l ∈ _, _))

namespace DocLinkScanAux

open CodeSpansAux

/-! ## Offsets -/

/-- The pieces of a text make up the text. -/
theorem flatten_splitBreaks (line text : List UInt16) : (splitBreaks line text).flatten = line ++ text := by
  induction text generalizing line with
  | nil => simp [splitBreaks]
  | cons c text ih =>
    unfold splitBreaks
    split
    · rename_i hc
      split
      · rename_i hlast
        have hline : line.dropLast ++ [carriageReturn] = line := by
          rw [List.getLast?_eq_some_iff] at hlast
          obtain ⟨front, rfl⟩ := hlast
          simp
        simp only [List.flatten_cons, ih, List.nil_append, hc]
        rw [← hline]
        simp
      · simp [ih, hc]
    · rw [ih]
      simp

/-- A line stands in the text where it starts. -/
theorem mem_placeLines {offset : Nat} {pieces : List (List UInt16)} {l : PlacedLine} (h : l ∈ placeLines offset pieces) :
    ∃ before after, pieces.flatten = before ++ l.content ++ after ∧ l.start = offset + before.length := by
  induction pieces generalizing offset with
  | nil => cases h
  | cons piece pieces ih =>
    have hlater : l ∈ placeLines (offset + piece.length) pieces →
        ∃ before after, (piece :: pieces).flatten = before ++ l.content ++ after ∧ l.start = offset + before.length := by
      intro hl
      obtain ⟨before, after, htext, hstart⟩ := ih hl
      refine ⟨piece ++ before, after, by simp [htext], ?_⟩
      rw [hstart, List.length_append, Nat.add_assoc]
    unfold placeLines at h
    split at h
    · exact hlater h
    · rcases List.mem_cons.mp h with rfl | h
      · exact ⟨[], pieces.flatten, rfl, rfl⟩
      · exact hlater h

/-- The lines come one after the other. -/
theorem placeLines_ordered (offset : Nat) (pieces : List (List UInt16)) :
    (∀ l ∈ placeLines offset pieces, offset ≤ l.start) ∧ (placeLines offset pieces).Pairwise fun l l' => l.stop ≤ l'.start := by
  induction pieces generalizing offset with
  | nil => exact ⟨fun l hl => absurd hl List.not_mem_nil, .nil⟩
  | cons piece pieces ih =>
    obtain ⟨hfrom, hordered⟩ := ih (offset + piece.length)
    unfold placeLines
    split
    · exact ⟨fun l hl => Nat.le_of_add_right_le (hfrom l hl), hordered⟩
    · refine ⟨fun l hl => ?_, List.pairwise_cons.mpr ⟨hfrom, hordered⟩⟩
      rcases List.mem_cons.mp hl with rfl | hl
      · exact Nat.le_refl _
      · exact Nat.le_of_add_right_le (hfrom l hl)

/-- A line of a text stands in it where it starts. -/
theorem mem_textLines {text : List UInt16} {l : PlacedLine} (h : l ∈ textLines text) :
    ∃ before after, text = before ++ l.content ++ after ∧ l.start = before.length := by
  obtain ⟨before, after, htext, hstart⟩ := mem_placeLines h
  rw [flatten_splitBreaks, List.nil_append] at htext
  exact ⟨before, after, htext, hstart.trans (Nat.zero_add _)⟩

/-- What starts in a line and ends in a line is in one line. -/
theorem line_unique {text : List UInt16} {l l' : PlacedLine} {start stop : Nat} (hl : l ∈ textLines text) (hl' : l' ∈ textLines text)
    (hlt : start < stop) (h : l.start ≤ start ∧ stop ≤ l.stop) (h' : l'.start ≤ start ∧ stop ≤ l'.stop) : l = l' := by
  by_contra hne
  have hapart : (textLines text).Pairwise fun l l' => l.stop ≤ l'.start ∨ l'.stop ≤ l.start :=
    (placeLines_ordered 0 _).2.imp Or.inl
  have hsymm : Std.Symm fun l l' : PlacedLine => l.stop ≤ l'.start ∨ l'.stop ≤ l.start := ⟨fun _ _ h => h.symm⟩
  rcases hapart.forall hl hl' hne with hle | hle <;> omega

/-- Without a carriage return of its own, a text has the lines that Markdown gives it. -/
theorem placeLines_splitBreaks {text : List UInt16} (h : returnsPaired text = true) (offset : Nat) (line : List UInt16)
    (hline : lineFeed ∉ line) : placeLines offset (splitBreaks line text) = markdownLines offset line text := by
  -- the line that has been read so far holds no line feed, so it is no break
  have hpiece : ∀ piece : List UInt16, lineFeed ∉ piece → isBreak piece = false := by
    intro piece hpiece
    simp only [isBreak, Bool.or_eq_false_iff, decide_eq_false_iff_not]
    constructor <;> rintro rfl <;> simp at hpiece
  induction text generalizing offset line with
  | nil => simp [splitBreaks, placeLines, markdownLines, hpiece line hline]
  | cons c text ih =>
    obtain ⟨hpaired, h⟩ := (Bool.and_eq_true _ _).mp h
    have hlater := ih h
    unfold splitBreaks markdownLines dropReturn
    by_cases hfeed : c = lineFeed
    · rw [if_pos hfeed, if_pos hfeed]
      split
      · rename_i hlast
        have hlen : line.dropLast.length + 1 = line.length := by
          rw [List.getLast?_eq_some_iff] at hlast
          obtain ⟨front, rfl⟩ := hlast
          simp
        have hfront : lineFeed ∉ line.dropLast := fun hmem => hline (List.dropLast_subset line hmem)
        rw [placeLines, hpiece _ hfront, if_neg Bool.false_ne_true, placeLines, if_pos (by decide), hlater _ _ List.not_mem_nil]
        simp only [List.length_cons, List.length_nil]
        congr 2
        omega
      · rw [placeLines, hpiece _ hline, if_neg Bool.false_ne_true, placeLines, if_pos (by decide), hlater _ _ List.not_mem_nil]
        rfl
    · have hreturn : ¬ (c = carriageReturn ∧ text.head? ≠ some lineFeed) := by
        rintro ⟨rfl, hhead⟩
        simp [hhead] at hpaired
      rw [if_neg hfeed, if_neg hfeed, if_neg hreturn]
      refine hlater offset (line ++ [c]) fun hmem => ?_
      rcases List.mem_append.mp hmem with hmem | hmem
      · exact hline hmem
      · exact hfeed (List.mem_singleton.mp hmem).symm

/-- The lines that Markdown reads are the lines that the scanner reads. -/
theorem map_document {text : List UInt16} (h : returnsPaired text = true) : (document text).map Prod.fst = textLines text := by
  rw [document, Markdown.map_readDocument, textLines, placeLines_splitBreaks h 0 [] List.not_mem_nil]

/-! ## Fences -/

/-- A line changes the fence on its own as the scanner does. -/
theorem fenceAlone_eq (fence : Option FenceState) (line : List UInt16) :
    fenceAlone (fence.map FenceState.fence) line = (nextFence fence line).map FenceState.fence := by
  cases fence with
  | none => exact openingFence_eq line
  | some opened =>
    unfold nextFence
    dsimp only [Option.map_some, fenceAlone]
    rw [closesFence_eq]
    split <;> rfl

/-- What the scanner leaves outside is no part of a fenced block, when each line reads on its own. -/
theorem reading_of_outsideFences {lines : List PlacedLine} {s : Markdown.Blocks} {fence : Option FenceState}
    (hfence : fence.map FenceState.fence = s.fence)
    (halone : ∀ r ∈ readDocument PlacedLine.content s lines, r.2.after = fenceAlone r.2.before r.1.content) :
    ∀ l ∈ outsideFences fence lines, ∃ r ∈ readDocument PlacedLine.content s lines, r.1 = l ∧ r.2.kind ≠ .fenced := by
  induction lines generalizing s fence with
  | nil => exact fun l hl => absurd hl List.not_mem_nil
  | cons x lines ih =>
    intro l hl
    have hnext := halone _ List.mem_cons_self
    rw [← hfence, fenceAlone_eq] at hnext
    have hlater : l ∈ outsideFences (nextFence fence x.content) lines →
        ∃ r ∈ readDocument PlacedLine.content s (x :: lines), r.1 = l ∧ r.2.kind ≠ .fenced := by
      intro hl
      obtain ⟨r, hr, hreading⟩ := ih hnext.symm (fun r hr => halone r (List.mem_cons_of_mem _ hr)) l hl
      exact ⟨r, List.mem_cons_of_mem _ hr, hreading⟩
    cases fence with
    | some opened => exact hlater hl
    | none =>
      unfold outsideFences at hl
      dsimp only at hl
      split at hl
      · rename_i hopens
        exact hlater (by rw [nextFence, hopens]; exact hl)
      · rename_i hopens
        rw [nextFence, hopens] at hnext
        rcases List.mem_cons.mp hl with rfl | hl
        · refine ⟨_, List.mem_cons_self, rfl, fun hkind => ?_⟩
          rcases Markdown.fence_of_fenced hkind with hopen | hopen
          · rw [← hfence] at hopen
            cases hopen
          · have hafter : (Markdown.readLine s (Markdown.expandTabs 0 l.content)).1.fence = none := hnext
            rw [hafter] at hopen
            cases hopen
        · exact hlater (by rw [nextFence, hopens]; exact hl)

/-- The lines that the scanner leaves outside are lines. -/
theorem outsideFences_sublist (fence : Option FenceState) (lines : List PlacedLine) : (outsideFences fence lines).Sublist lines := by
  induction lines generalizing fence with
  | nil => exact .refl _
  | cons l lines ih =>
    unfold outsideFences
    split
    · exact (ih _).cons l
    · split
      · exact (ih _).cons l
      · exact (ih _).cons_cons l

/-! ## The scan -/

/-- The scan reports what is in the lines that are read. -/
theorem scanFrom_eq (fence : Option FenceState) (offset : Nat) (pieces : List (List UInt16)) :
    scanFrom fence offset pieces =
      ((outsideFences fence (placeLines offset pieces)).filter fun l => ! isSkippedLine l.content).flatMap
      fun l => lineMatches l.start l.content := by
  induction pieces generalizing fence offset with
  | nil => rfl
  | cons piece pieces ih =>
    unfold scanFrom placeLines
    by_cases hbreak : isBreak piece = true
    · rw [if_pos hbreak, if_pos hbreak, ih]
    · rw [if_neg hbreak, if_neg hbreak]
      cases fence with
      | some opened => exact ih _ _
      | none =>
        unfold outsideFences
        dsimp only
        cases parseOpeningFence piece with
        | some opened => exact ih _ _
        | none =>
          dsimp only
          by_cases hskip : isSkippedLine piece = true
          · rw [if_pos hskip, List.filter_cons_of_neg (by simp [hskip]), ih]
          · rw [if_neg hskip, List.filter_cons_of_pos (by simp [hskip]), List.flatMap_cons, ih]

/-- A reported path is a path of a line that is read. -/
theorem mem_scan {text : List UInt16} {m : BarePathMatch} (h : m ∈ scanBareDocPathTokens text) :
    ∃ l ∈ readLines text, ∃ p ∈ barePaths l.content, m =
      { raw := p.2
        start := l.start + p.1
        stop := l.start + (p.1 + p.2.length)
        enclosingCodeSpan := (findEnclosingRange p.1 (findInlineCodeSpans l.content)).map fun enclosing =>
          (l.start + enclosing.1, l.start + enclosing.2) } := by
  rw [scanBareDocPathTokens, scanFrom_eq] at h
  obtain ⟨l, hl, hm⟩ := List.mem_flatMap.mp h
  obtain ⟨p, hp, rfl⟩ := List.mem_map.mp hm
  exact ⟨l, hl, p, hp, rfl⟩

/-- A path of a line that is read is reported. -/
theorem mem_scan_of_mem {text : List UInt16} {l : PlacedLine} (hl : l ∈ readLines text) {p : Nat × List UInt16}
    (hp : p ∈ barePaths l.content) :
    { raw := p.2
      start := l.start + p.1
      stop := l.start + (p.1 + p.2.length)
      enclosingCodeSpan := (findEnclosingRange p.1 (findInlineCodeSpans l.content)).map fun enclosing =>
        (l.start + enclosing.1, l.start + enclosing.2) } ∈ scanBareDocPathTokens text := by
  rw [scanBareDocPathTokens, scanFrom_eq]
  exact List.mem_flatMap.mpr ⟨l, hl, List.mem_map_of_mem hp⟩

/-- A line that is read is a line outside the fences that is not skipped. -/
theorem mem_readLines {text : List UInt16} {l : PlacedLine} (h : l ∈ readLines text) :
    l ∈ textLines text ∧ l ∈ outsideFences none (textLines text) ∧ ¬ IsIndentedCode l.content ∧
      ¬ IsReferenceDefinition l.content := by
  obtain ⟨hout, hskip⟩ := List.mem_filter.mp h
  have hread : isSkippedLine l.content = false := by simpa using hskip
  refine ⟨(outsideFences_sublist none _).subset hout, hout, ?_, ?_⟩
  · intro hindented
    rw [isSkippedLine_indented hindented] at hread
    cases hread
  · intro hreference
    rw [isSkippedLine_reference hreference] at hread
    cases hread

/-- A line that is read is no part of a fenced block, no indented code and no definition, when the text reads line by line. -/
theorem reading_of_readLines {text : List UInt16} (h : PlainMarkdown text) {l : PlacedLine} (hl : l ∈ readLines text) :
    ∃ r ∈ document text, r.1 = l ∧ r.2.kind = .other ∧ isDefinition r.2.inside = false := by
  obtain ⟨_, hout, hindented, hreference⟩ := mem_readLines hl
  have hdocument : textLines text = markdownLines 0 [] text := placeLines_splitBreaks h.returns 0 [] List.not_mem_nil
  rw [hdocument] at hout
  obtain ⟨r, hr, rfl, hkind⟩ := @reading_of_outsideFences _ .start none rfl h.fences l hout
  refine ⟨r, hr, rfl, ?_, ?_⟩
  · cases hr' : r.2.kind with
    | fenced => exact absurd hr' hkind
    | indentedCode => exact absurd (h.code r hr hr') hindented
    | other => rfl
  · rw [Bool.eq_false_iff]
    exact fun hdefinition => hreference (h.definitions r hr hdefinition)

/-- A path that the scanner keeps is a path of the line. -/
theorem mem_docPaths {line : List UInt16} {p : Nat × List UInt16} (h : p ∈ barePaths line) : p ∈ docPaths line := by
  obtain ⟨hmem, hkept⟩ := List.mem_filter.mp h
  simp only [Bool.and_eq_true] at hkept
  exact List.mem_filter.mpr ⟨hmem, by simp [hkept.1.1, hkept.2]⟩

/-- A path that the scanner keeps is apart from a range that a pattern for links or tags matches as a whole. -/
theorem barePath_apart {line path : List UInt16} {start : Nat} {d : Char} {rs : List (Regex UInt16)} {r : Nat × Nat}
    (hd : ¬ IsPathUnit (unit d)) (hsub : Scan.matchAll (lengthAt (Regex.seqs (chr d :: rs))) 0 0 line ⊆ findHardSkipRanges line)
    (h : (start, path) ∈ barePaths line) (hwhole : Meets (start, path) r → MatchedWhole (Regex.seqs (chr d :: rs)) line r) :
    start + path.length ≤ r.1 ∨ r.2 ≤ start := by
  by_contra hmeets
  obtain ⟨hmatch, hstops⟩ := hwhole ⟨by dsimp only; omega, by dsimp only; omega⟩
  obtain ⟨hne, ⟨before, after, hline, hstart, hpath⟩, hskip⟩ := mem_barePaths h
  -- the range starts with a character that no path has, so the path lies behind it
  have hhead := List.head?_drop.symm.trans (head_of_seqs hmatch)
  have hbehind : r.1 < start := by
    rcases apart_of_not_pathUnit hline hpath hhead hd with hlt | hle
    · exact hstart ▸ hlt
    · omega
  have hlength : r.2 - r.1 = (r.2 - r.1 - 1) + 1 := by omega
  rw [hlength] at hmatch
  rcases @Scan.covered_of_match UInt16 _ 0 0 r.1 _ line (List.getElem?_eq_some_iff.mp hhead).1 hmatch with hlt | ⟨r', hr', hrange⟩
  · exact absurd hlt (Nat.not_lt_zero _)
  · have hout := hskip r' (hsub hr')
    obtain ⟨k, n, _, rfl, hm⟩ := Scan.range_of_mem hr'
    dsimp only at hrange hout
    by_cases hsame : k = r.1
    · omega
    · have hstop := hstops k (by omega) (n + 1) hm
      omega

/-- A path that starts in a range between backticks ends in it. -/
theorem barePath_in_span {line path : List UInt16} {start : Nat} (h : (start, path) ∈ barePaths line) {r : Nat × Nat}
    (hr : r ∈ findInlineCodeSpans line) (hin : start < r.2) : start + path.length ≤ r.2 := by
  obtain ⟨_, ⟨before, after, hline, rfl, hpath⟩, _⟩ := mem_barePaths h
  have htick : ¬ IsPathUnit tick := by unfold IsPathUnit; decide
  rcases apart_of_not_pathUnit hline hpath (last_of_mem_findInlineCodeSpans hr) htick with hlast | hlast <;> omega

theorem isInside_iff {i : Nat} {r : Nat × Nat} : isInside i r = true ↔ r.1 ≤ i ∧ i < r.2 := by
  simp [isInside]

/-- The range that is found lies around the position. -/
theorem find_spec {i : Nat} {ranges : List (Nat × Nat)} {r : Nat × Nat} (h : findEnclosingRange i ranges = some r) :
    r ∈ ranges ∧ r.1 ≤ i ∧ i < r.2 :=
  ⟨List.mem_of_find?_eq_some h, isInside_iff.mp (List.find?_some h)⟩

/-- The range around a position is that of the pair around it. -/
theorem findEnclosingRange_eq_some {line : List UInt16} {q : Pair} {i : Nat} (hq : q ∈ backtickPairs line) (hstart : q.start ≤ i)
    (hstop : i < q.stop) : findEnclosingRange i (findInlineCodeSpans line) = some (q.start, q.stop) := by
  have hmem : (q.start, q.stop) ∈ findInlineCodeSpans line := by
    rw [findInlineCodeSpans_eq]
    exact List.mem_map_of_mem hq
  cases hfind : findEnclosingRange i (findInlineCodeSpans line) with
  | none => exact absurd (isInside_iff.mpr ⟨hstart, hstop⟩) (List.find?_eq_none.mp hfind _ hmem)
  | some r =>
    obtain ⟨hr, hrstart, hrstop⟩ := find_spec hfind
    by_contra hne
    have hapart : (findInlineCodeSpans line).Pairwise fun r r' => r.2 ≤ r'.1 ∨ r'.2 ≤ r.1 :=
      (findInlineCodeSpans_ordered line).imp Or.inl
    have hsymm : Std.Symm fun r r' : Nat × Nat => r.2 ≤ r'.1 ∨ r'.2 ≤ r.1 := ⟨fun _ _ h => h.symm⟩
    rcases hapart.forall hr hmem (fun h => hne (congrArg some h)) with hle | hle <;> omega

/-- The paths of the lines are found in the text where they are said to be. -/
theorem slice_of_path {text path : List UInt16} {l : PlacedLine} {start : Nat} (hl : l ∈ textLines text)
    (hp : (start, path) ∈ barePaths l.content) :
    l.start + start < l.start + (start + path.length) ∧ l.start + (start + path.length) ≤ l.stop ∧ l.stop ≤ text.length ∧
      (text.take (l.start + (start + path.length))).drop (l.start + start) = path := by
  obtain ⟨hne, ⟨before, after, hline, rfl, _⟩, _⟩ := mem_barePaths hp
  obtain ⟨a, z, htext, hstart⟩ := mem_textLines hl
  have hpos := List.length_pos_iff.mpr hne
  have hlen := congrArg List.length hline
  have htlen := congrArg List.length htext
  simp only [List.length_append] at hlen htlen
  refine ⟨by omega, by unfold PlacedLine.stop; omega, by unfold PlacedLine.stop; omega, ?_⟩
  have hsplit : text = (a ++ before) ++ (path ++ (after ++ z)) := by
    rw [htext, hline]
    simp
  rw [hsplit, hstart, ← Nat.add_assoc, ← List.length_append, List.take_length_add_append, List.take_left, List.drop_left]

/-- The reported paths come one after the other. -/
theorem scan_ordered (text : List UInt16) : (scanBareDocPathTokens text).Pairwise fun m m' => m.stop ≤ m'.start := by
  rw [scanBareDocPathTokens, scanFrom_eq, List.pairwise_flatMap]
  refine ⟨fun l _ => ?_, ?_⟩
  · rw [lineMatches, List.pairwise_map]
    refine (barePaths_ordered l.content).imp fun hle => ?_
    dsimp only
    omega
  · have hlines : (readLines text).Pairwise fun l l' => l.stop ≤ l'.start :=
      ((placeLines_ordered 0 _).2.sublist (outsideFences_sublist none _)).sublist List.filter_sublist
    refine hlines.imp_of_mem fun {l l'} hl _ hle m hm m' hm' => ?_
    obtain ⟨p, hp, rfl⟩ := List.mem_map.mp hm
    obtain ⟨p', _, rfl⟩ := List.mem_map.mp hm'
    obtain ⟨_, hstop, _, _⟩ := slice_of_path (mem_readLines hl).1 hp
    dsimp only
    omega

end DocLinkScanAux

open DocLinkScanAux CodeSpansAux

namespace DocLinkScanExample

/-- A path after one backtick and before two. -/
def unbalanced : List UInt16 := units "\x60a.md\x60\x60"

/-- The first of the two backticks is taken for the end of a code span. -/
theorem scan_unbalanced : scanBareDocPathTokens unbalanced = [⟨units "a.md", 1, 5, some (0, 6)⟩] := by
  decide

/-- A list item with a path in a code span, a fenced block that is indented with it, and a link and a tag that hold paths. -/
def listed : List UInt16 :=
  units "- \x60a.md\x60\n  \x7e\x7e\x7e\n  b.md\n  \x7e\x7e\x7e\n[c](c.md) <i t=\"d.md\"> e.md"

theorem plain_listed : PlainMarkdown listed := by
  have hlines : ∀ r ∈ document listed, r.2.after = fenceAlone r.2.before r.1.content ∧ r.2.kind ≠ .indentedCode ∧
      isDefinition r.2.inside = false := by
    decide +kernel
  exact
    { returns := by decide +kernel
      fences := fun r hr => (hlines r hr).1
      code := fun r hr hcode => absurd hcode (hlines r hr).2.1
      definitions := fun r hr hdefinition => absurd hdefinition (by rw [(hlines r hr).2.2]; exact Bool.false_ne_true)
      inlines := by decide +kernel }

/-- The two paths that are no part of the block, the link and the tag are reported, the first with its code span. -/
theorem scan_listed : scanBareDocPathTokens listed = [⟨units "a.md", 3, 7, some (2, 8)⟩, ⟨units "e.md", 51, 55, none⟩] := by
  decide +kernel

end DocLinkScanExample

end FirstTree
