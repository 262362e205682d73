import FirstTree.Lib.Regex
import FirstTree.Lib.Scan
import FirstTree.Lib.Utf16

/-!
# Scanning for document paths

The scanner of plain document paths in the text of a chat message, which the runtime and the web share. Texts are lists of UTF-16 code
units, so that positions are the offsets of the source.
-/

namespace FirstTree

/-- The two characters a fence is made of. -/
inductive FenceMarker where
  | backtick
  | tilde
  deriving DecidableEq, Repr

/-- An open fence. -/
structure FenceState where
  marker : FenceMarker
  length : Nat
  deriving DecidableEq, Repr

/-- A path the scanner reports. -/
structure BarePathMatch where
  raw : List UInt16
  start : Nat
  stop : Nat
  enclosingCodeSpan : Option (Nat × Nat)
  deriving DecidableEq

namespace DocLinkScan

open Scan Utf16

/-! ## Characters -/

/-- The code unit of a backtick. -/
def tick : UInt16 := unit '\x60'

/-- The code unit of a line feed. -/
def lineFeed : UInt16 := unit '\n'

/-- The code unit of a carriage return. -/
def carriageReturn : UInt16 := unit '\r'

/-- The code unit lies between two characters. -/
def between (low high : Char) (c : UInt16) : Bool := unit low ≤ c && c ≤ unit high

/-- `[0-9]`. -/
def isDigit (c : UInt16) : Bool := between '0' '9' c

/-- `[A-Za-z]`. -/
def isAlpha (c : UInt16) : Bool := between 'A' 'Z' c || between 'a' 'z' c

/-- The characters `.` does not match. -/
def isLineTerminator (c : UInt16) : Bool := c = lineFeed || c = carriageReturn || c = 0x2028 || c = 0x2029

/-- `[A-Za-z0-9_.~+@%-]`. -/
def isSegmentChar (c : UInt16) : Bool := isAlpha c || isDigit c || (units "_.~+@%-").contains c

/-- The characters a path may follow. -/
def isBefore (c : UInt16) : Bool := isSpace c || (units "([\x7b\"'\x60").contains c

/-- The characters that may follow a path. -/
def isAfter (c : UInt16) : Bool := isSpace c || (units ")]\x7d\"',.;!?\x60").contains c

/-! ## Patterns -/

/-- One match of a pattern or more. -/
def plus (r : Regex UInt16) : Regex UInt16 := .seq r (.star r)

/-- One given character. -/
def chr (c : Char) : Regex UInt16 := .char (· == unit c)

/-- `(?:\.{1,2}\/|\/)?`. -/
def pathRoot : Regex UInt16 :=
  Regex.opt (.alt (Regex.seqs [chr '.', .upTo 1 (chr '.'), chr '/']) (chr '/'))

/-- `(?::\d+(?::\d+)?)?`. -/
def lineSuffix : Regex UInt16 :=
  Regex.opt (Regex.seqs [chr ':', plus (.char isDigit), Regex.opt (.seq (chr ':') (plus (.char isDigit)))])

/-- The path of `BARE_PATH_RE`. -/
def pathPattern : Regex UInt16 :=
  Regex.seqs [pathRoot, .star (.seq (plus (.char isSegmentChar)) (chr '/')), plus (.char isSegmentChar), Regex.literal (units ".md"),
    lineSuffix]

/-- `BARE_PATH_RE`: what the path follows is the first group, the path the second. `^` matches at the start of a line only. -/
def barePath (atStart : Bool) : Regex UInt16 :=
  .seq (.group 1 (if atStart then .alt .empty (.char isBefore) else .char isBefore))
    (.seq (.group 2 pathPattern) (.ahead (.alt .atEnd (.char isAfter))))

/-- `INLINE_MARKDOWN_LINK_RE`. -/
def inlineMarkdownLink : Regex UInt16 :=
  Regex.seqs [chr '[',
    .star (.alt (.char fun c => c ≠ unit ']' && c ≠ unit '\\' && c ≠ lineFeed)
      (.seq (chr '\\') (.char fun c => ! isLineTerminator c))),
    chr ']', chr '(', .star (.char fun c => c ≠ unit ')' && c ≠ lineFeed), chr ')']

/-- `HTML_TAG_RE`. -/
def htmlTag : Regex UInt16 :=
  Regex.seqs [chr '<', Regex.opt (chr '/'), .char isAlpha, .star (.char fun c => c ≠ unit '>' && c ≠ lineFeed), chr '>']

/-- `DOMAIN_LIKE_PREFIX_RE`. -/
def domainLikePrefix : Regex UInt16 :=
  Regex.seqs [.char isAlpha, .star (.char fun c => isAlpha c || isDigit c || c = unit '.' || c = unit '-'), chr '.', .char isAlpha,
    plus (.char isAlpha), chr '/']

/-- `REFERENCE_LINK_DEFINITION_RE`. -/
def referenceLinkDefinition : Regex UInt16 :=
  Regex.seqs [.star (.char isSpace), chr '[', plus (.char fun c => c ≠ unit ']' && c ≠ lineFeed), chr ']', chr ':',
    .star (.char isSpace), plus (.char fun c => ! isSpace c)]

/-- `INDENT_CODE_RE`. -/
def indentCode : Regex UInt16 := .alt (Regex.literal (units "    ")) (chr '\t')

/-! ## Fences -/

/-- The fence character of a code unit. -/
def markerOf (c : UInt16) : Option FenceMarker :=
  if c = tick then some .backtick else if c = unit '~' then some .tilde else none

/-- `FENCE_MARKER_RE`: the character of the marker, its length and what follows it. A space is no marker character, so the runs at the
front are the only ones that can match. -/
def fenceMarker (line : List UInt16) : Option (FenceMarker × Nat × List UInt16) :=
  match line.dropWhile (· = unit ' ') with
  | [] => none
  | c :: rest =>
    match markerOf c with
    | none => none
    | some marker =>
      let length := 1 + (rest.takeWhile (· = c)).length
      if (line.takeWhile (· = unit ' ')).length ≤ 3 ∧ 3 ≤ length then some (marker, length, rest.dropWhile (· = c)) else none

/-- `parseOpeningFence`. -/
def parseOpeningFence (line : List UInt16) : Option FenceState :=
  match fenceMarker line with
  | none => none
  | some (marker, length, info) => if marker = .backtick ∧ tick ∈ info then none else some ⟨marker, length⟩

/-- `isClosingFence`. -/
def isClosingFence (line : List UInt16) (fence : FenceState) : Bool :=
  match fenceMarker line with
  | none => false
  | some (marker, length, rest) =>
    marker = fence.marker && fence.length ≤ length && rest.all fun c => c = unit ' ' || c = unit '\t'

/-! ## Ranges of a line -/

/-- How long the match of a pattern at the head of a text is. -/
def lengthAt (r : Regex UInt16) (l : List UInt16) : Option Nat := (r.exec l).map (·.consumed.length)

/-- `findHardSkipRanges`. -/
def findHardSkipRanges (line : List UInt16) : List (Nat × Nat) :=
  matchAll (lengthAt inlineMarkdownLink) 0 0 line ++ matchAll (lengthAt htmlTag) 0 0 line

/-- `indexOf`. -/
def indexOf (needle : List UInt16) : List UInt16 → Option Nat
  | [] => if needle = [] then some 0 else none
  | c :: l => if needle.isPrefixOf (c :: l) then some 0 else (indexOf needle l).map (· + 1)

/-- What the loop of `findInlineCodeSpans` does at a position: a run of backticks opens a span up to the next occurrence of as
many. -/
def codeSpanAt (i : Nat) (l : List UInt16) : Option (Nat × Nat) × Nat :=
  match (l.takeWhile (· = tick)).length with
  | 0 => (none, 1)
  | n + 1 =>
    match indexOf (List.replicate (n + 1) tick) (l.dropWhile (· = tick)) with
    | none => (none, n + 1)
    | some k => (some (i, i + (n + 1 + k + (n + 1))), n + 1 + k + (n + 1))

/-- `findInlineCodeSpans`. -/
def findInlineCodeSpans (line : List UInt16) : List (Nat × Nat) :=
  collect codeSpanAt 0 0 line

/-- The index lies in the range. -/
def isInside (index : Nat) (range : Nat × Nat) : Bool := range.1 ≤ index && index < range.2

/-- `isInsideAnyRange`. -/
def isInsideAnyRange (index : Nat) (ranges : List (Nat × Nat)) : Bool := ranges.any (isInside index)

/-- `findEnclosingRange`. -/
def findEnclosingRange (index : Nat) (ranges : List (Nat × Nat)) : Option (Nat × Nat) := ranges.find? (isInside index)

/-! ## Paths of a line -/

/-- `toLowerCase` of an ASCII letter. -/
def lower (c : UInt16) : UInt16 := if between 'A' 'Z' c then c + 32 else c

/-- `isDomainLike`. A path is ASCII. -/
def isDomainLike (path : List UInt16) : Bool :=
  ! (units ".md").isSuffixOf ((path.takeWhile (· ≠ unit '/')).map lower) && (domainLikePrefix.exec path).isSome

/-- `BARE_PATH_RE.exec` at a position: the path with where it starts. -/
def barePathAt (i : Nat) (l : List UInt16) : Option (Nat × List UInt16) × Nat :=
  match (barePath (i = 0)).exec l with
  | none => (none, 1)
  | some m => (some (i + ((m.capture 1).getD []).length, (m.capture 2).getD []), m.consumed.length)

/-- The paths of a line that are no part of a link or a tag and no domain. -/
def barePaths (line : List UInt16) : List (Nat × List UInt16) :=
  (collect barePathAt 0 0 line).filter fun p =>
    p.2 ≠ [] && ! isInsideAnyRange p.1 (findHardSkipRanges line) && ! isDomainLike p.2

/-- The entries of a line. -/
def lineMatches (absoluteOffset : Nat) (line : List UInt16) : List BarePathMatch :=
  (barePaths line).map fun p =>
    { raw := p.2
      start := absoluteOffset + p.1
      stop := absoluteOffset + (p.1 + p.2.length)
      enclosingCodeSpan := (findEnclosingRange p.1 (findInlineCodeSpans line)).map fun enclosing =>
        (absoluteOffset + enclosing.1, absoluteOffset + enclosing.2) }

/-! ## The scanner -/

/-- `text.split(/(\r?\n)/)`: the lines, with the line breaks between them. -/
def splitBreaks (line : List UInt16) : List UInt16 → List (List UInt16)
  | [] => [line]
  | c :: rest =>
    if c = lineFeed then
      if line.getLast? = some carriageReturn then line.dropLast :: [carriageReturn, lineFeed] :: splitBreaks [] rest
      else line :: [lineFeed] :: splitBreaks [] rest
    else splitBreaks (line ++ [c]) rest

/-- A piece that is a line break. -/
def isBreak (piece : List UInt16) : Bool := piece = [lineFeed] || piece = [carriageReturn, lineFeed]

/-- A line that holds no paths: indented code, or the definition of a link. -/
def isSkippedLine (line : List UInt16) : Bool := (indentCode.exec line).isSome || (referenceLinkDefinition.exec line).isSome

/-- The loop over the lines. -/
def scanFrom (fence : Option FenceState) (absoluteOffset : Nat) : List (List UInt16) → List BarePathMatch
  | [] => []
  | line :: lines =>
    if isBreak line then scanFrom fence (absoluteOffset + line.length) lines
    else
      match fence with
      | some open_ =>
        scanFrom (if isClosingFence line open_ then none else some open_) (absoluteOffset + line.length) lines
      | none =>
        match parseOpeningFence line with
        | some opened => scanFrom (some opened) (absoluteOffset + line.length) lines
        | none =>
          if isSkippedLine line then scanFrom none (absoluteOffset + line.length) lines
          else lineMatches absoluteOffset line ++ scanFrom none (absoluteOffset + line.length) lines

/-- `scanBareDocPathTokens`. -/
def scanBareDocPathTokens (text : List UInt16) : List BarePathMatch :=
  scanFrom none 0 (splitBreaks [] text)

end DocLinkScan

end FirstTree
