import FirstTree.Lib.MarkdownInlines
import FirstTree.Lib.Scan
import FirstTree.Lib.Utf16

/-!
# Block structure of Markdown

The lines of a CommonMark document, read one after the other. The state is what is open: block quotes and list items, and in the
last of them a paragraph, a fenced code block or an HTML block. A line goes on with the blocks it can, opens the blocks it starts,
and closes what it does not go on with; only a line of text may go on with a paragraph alone. Tabs stand for spaces up to the next
stop.
-/

namespace Markdown

open Utf16

/-! ## Fences -/

/-- A fence: its character and how many there are. -/
structure Fence where
  marker : UInt16
  length : Nat
  deriving DecidableEq

/-- The fence that a line starts with, behind three spaces at most, and what follows it. -/
def fenceRun (line : List UInt16) : Option (Fence × List UInt16) :=
  match line.dropWhile (· = unit ' ') with
  | [] => none
  | c :: rest =>
    let length := 1 + (rest.takeWhile (· = c)).length
    if (c = unit '\x60' ∨ c = unit '~') ∧ (line.takeWhile (· = unit ' ')).length ≤ 3 ∧ 3 ≤ length then
      some (⟨c, length⟩, rest.dropWhile (· = c))
    else none

/-- The fence that a line opens: no backtick follows backticks. -/
def openingFence (line : List UInt16) : Option Fence :=
  ((fenceRun line).filter fun r => ! (r.1.marker = unit '\x60' && r.2.contains (unit '\x60'))).map (·.1)

/-- A line closes a fence: with as many of its characters, and nothing but blanks behind them. -/
def closesFence (fence : Fence) (line : List UInt16) : Bool :=
  (fenceRun line).any fun r => r.1.marker = fence.marker && fence.length ≤ r.1.length && r.2.all isBlank

/-- The fence that is open after a line, when the line is read on its own. -/
def fenceAlone (fence : Option Fence) (line : List UInt16) : Option Fence :=
  match fence with
  | none => openingFence line
  | some fence => if closesFence fence line then none else some fence

/-! ## Lines -/

/-- The tabs of a line as spaces, from a column on. -/
def expandTabs : Nat → List UInt16 → List UInt16
  | _, [] => []
  | column, c :: l =>
    if c = unit '\t' then List.replicate (4 - column % 4) (unit ' ') ++ expandTabs (column + (4 - column % 4)) l
    else c :: expandTabs (column + 1) l

/-- How many spaces a line starts with. -/
def indent (l : List UInt16) : Nat := (l.takeWhile (· = unit ' ')).length

/-- A line without its indentation. -/
def unindented (l : List UInt16) : List UInt16 := l.dropWhile (· = unit ' ')

/-- A line of nothing but spaces. -/
def isBlankLine (l : List UInt16) : Bool := (unindented l).isEmpty

/-- A text starts with another one. -/
def startsWith (l : List UInt16) (s : String) : Bool := (units s).isPrefixOf l

/-- A text holds another one. -/
def holds (l : List UInt16) (s : String) : Bool := l.tails.any fun t => startsWith t s

/-- An ASCII text in small letters. -/
def lower (l : List UInt16) : List UInt16 := l.map fun c => if between 'A' 'Z' c then c + 32 else c

/-! ## Leaf blocks -/

/-- Three or more of the same character of a thematic break, and spaces. -/
def isThematicBreak (l : List UInt16) : Bool :=
  ['*', '-', '_'].any fun c => l.all (fun d => d = unit c || d = unit ' ') && decide (3 ≤ l.count (unit c))

/-- Up to six number signs, and a space or nothing. -/
def isHeading (l : List UInt16) : Bool :=
  let level := (l.takeWhile (· = unit '#')).length
  decide (1 ≤ level ∧ level ≤ 6) && (l.drop level).head?.all (· = unit ' ')

/-- What makes a heading of the paragraph before it. -/
def isUnderline (l : List UInt16) : Bool :=
  ['=', '-'].any fun c => l.head? = some (unit c) && (l.dropWhile (· = unit c)).all (· = unit ' ')

/-- The tags that start an HTML block which goes on to the end of one of them. -/
def rawTags : List String := ["script", "pre", "style", "textarea"]

/-- The tags that start an HTML block which goes on to a blank line. -/
def blockTags : List String :=
  ["address", "article", "aside", "base", "basefont", "blockquote", "body", "caption", "center", "col", "colgroup", "dd", "details",
    "dialog", "dir", "div", "dl", "dt", "fieldset", "figcaption", "figure", "footer", "form", "frame", "frameset", "h1",
      "h2", "h3", "h4",
    "h5", "h6", "head", "header", "hr", "html", "iframe", "legend", "li", "link", "main", "menu", "menuitem", "nav", "noframes", "ol",
    "optgroup", "option", "p", "param", "search", "section", "summary", "table", "tbody", "td", "tfoot", "th", "thead", "title", "tr",
    "track", "ul"]

/-- The texts that end the HTML block that a line starts, where a blank line ends one without. A paragraph is interrupted by the
start of all but those that any tag starts. -/
def htmlStart (inParagraph : Bool) (l : List UInt16) : Option (List String) :=
  let small := lower l
  let ends (s : String) (behind : List UInt16) := behind.isEmpty || startsWith behind " " || startsWith behind s
  if rawTags.any fun t => startsWith small ("<" ++ t) && ends ">" (small.drop (t.length + 1)) then
    some (rawTags.map fun t => "</" ++ t ++ ">")
  else if startsWith l "<!--" then some ["-->"]
  else if startsWith l "<?" then some ["?>"]
  else if startsWith l "<!" && (l.drop 2).head?.any isLetter then some [">"]
  else if startsWith l "<![CDATA[" then some ["]]>"]
  else if blockTags.any fun t =>
      (startsWith small ("<" ++ t) && (ends ">" (small.drop (t.length + 1)) || startsWith (small.drop (t.length + 1)) "/>")) ||
        (startsWith small ("</" ++ t) && (ends ">" (small.drop (t.length + 2)) || startsWith (small.drop (t.length + 2)) "/>")) then
    some []
  else if ! inParagraph && ((after (.alt openTag closingTag) l).any isBlankLine) then some []
  else none

/-- A line ends an HTML block. -/
def endsHtml (ends : List String) (l : List UInt16) : Bool :=
  if ends.isEmpty then isBlankLine l else ends.any (holds (lower l))

/-- What the definition of a link starts with: a label in brackets, a colon and a destination. -/
def definition : Regex UInt16 :=
  Regex.seqs [.upTo 3 (chr ' '), chr '[', plus (.alt (.seq (chr '\\') (.char fun _ => true)) (noneOf "[]\\")), chr ']',
    chr ':', blanks, .char fun c => ! isBlank c]

/-- A line starts the definition of a link. -/
def isDefinition (l : List UInt16) : Bool := (definition.exec l).isSome

/-! ## Containers -/

/-- A block quote, or a list item, by how far its content is indented and whether it is empty so far. -/
inductive Container where
  | quote
  | item (offset : Nat) (empty : Bool)
  deriving DecidableEq

/-- A line without one space in front. -/
def dropSpace (l : List UInt16) : List UInt16 := if l.head? = some (unit ' ') then l.tail else l

/-- What is left of a line that goes on with a container. -/
def goesOn : Container → List UInt16 → Option (List UInt16)
  | .quote, l =>
    if indent l ≤ 3 ∧ (unindented l).head? = some (unit '>') then some (dropSpace (unindented l).tail) else none
  | .item offset empty, l =>
    if isBlankLine l then (if empty then none else some [])
    else if offset ≤ indent l then some (l.drop offset) else none

/-- The containers that a line goes on with, and what is left of it. -/
def goOn : List Container → List UInt16 → List Container × List UInt16
  | [], l => ([], l)
  | c :: containers, l =>
    match goesOn c l with
    | none => ([], l)
    | some l => ((goOn containers l).1.cons c, (goOn containers l).2)

/-- The width of the marker of a list item. A paragraph is interrupted by the marker of a first item with content only. -/
def markerWidth (inParagraph : Bool) (l : List UInt16) : Option Nat :=
  let digits := l.takeWhile isDigit
  let width :=
    if l.head?.any (units "*+-").contains then some 1
    else if 1 ≤ digits.length ∧ digits.length ≤ 9 ∧ (l.drop digits.length).head?.any (units ".)").contains = true ∧
        (inParagraph = true → digits = units "1") then some (digits.length + 1)
    else none
  width.filter fun w => (l.drop w).head?.all (· = unit ' ') && ! (inParagraph && isBlankLine (l.drop w))

/-- The containers that a line opens behind others, and what is left of it. -/
def openContainers : Nat → Bool → List UInt16 → List Container × List UInt16
  | 0, _, l => ([], l)
  | fuel + 1, inParagraph, l =>
    let text := unindented l
    if 4 ≤ indent l then ([], l)
    else if text.head? = some (unit '>') then
      let (containers, rest) := openContainers fuel false (dropSpace text.tail)
      (.quote :: containers, rest)
    else if isThematicBreak text then ([], l)
    else
      match markerWidth inParagraph text with
      | none => ([], l)
      | some width =>
        let behind := text.drop width
        let padding := if isBlankLine behind ∨ 5 ≤ indent behind then 1 else indent behind
        let (containers, rest) := openContainers fuel false (behind.drop padding)
        (.item (indent l + width + padding) (isBlankLine behind) :: containers, rest)

/-! ## A document -/

/-- The block that is open in the last container. -/
inductive Leaf where
  | nothing
  | paragraph
  | fence (fence : Fence)
  | html (ends : List String)
  deriving DecidableEq

/-- What is open. -/
structure Blocks where
  containers : List Container
  leaf : Leaf

/-- The fence that is open. -/
def Blocks.fence (s : Blocks) : Option Fence :=
  match s.leaf with
  | .fence fence => some fence
  | _ => none

/-- What a line is. -/
inductive LineKind where
  | fenced
  | indentedCode
  | other
  deriving DecidableEq

/-- What a line starts or goes on with in its container, which may hold a paragraph or be in one that the line may go on with: the
block that is open after it, and what it is. -/
def leafOf (inParagraph lazy : Bool) (l : List UInt16) : Leaf × LineKind :=
  let text := unindented l
  if text.isEmpty then (.nothing, .other)
  else if 4 ≤ indent l then (if inParagraph || lazy then (.paragraph, .other) else (.nothing, .indentedCode))
  else if isHeading text then (.nothing, .other)
  else
    match openingFence l, htmlStart (inParagraph || lazy) text with
    | some fence, _ => (.fence fence, .fenced)
    | none, some ends => (if ! ends.isEmpty && endsHtml ends text then .nothing else .html ends, .other)
    | none, none =>
      if (inParagraph && isUnderline text) || isThematicBreak text then (.nothing, .other) else (.paragraph, .other)

/-- The items that have content. -/
def filled (containers : List Container) : List Container :=
  containers.map fun
    | .quote => .quote
    | .item offset _ => .item offset false

/-- A line that starts something, or goes on with a paragraph: one of the last container that it goes on with, or one that is
further in and goes on with a line of text alone. -/
def startBlocks (s : Blocks) (kept : List Container) (inParagraph lazy : Bool) (l : List UInt16) : Blocks × LineKind × List UInt16 :=
  let (opened, l) := openContainers l.length inParagraph l
  let (leaf, kind) := leafOf (inParagraph && opened.isEmpty) (lazy && opened.isEmpty) l
  if lazy && opened.isEmpty && leaf = .paragraph then (s, kind, l)
  else
    let containers :=
      if ! isBlankLine l then filled (kept ++ opened) else if opened.isEmpty then kept else filled kept ++ opened
    (⟨containers, leaf⟩, kind, l)

/-- The next line of a document, its tabs expanded: what is open after it, what it is, and what its containers leave of it. -/
def readLine (s : Blocks) (line : List UInt16) : Blocks × LineKind × List UInt16 :=
  let (kept, l) := goOn s.containers line
  match decide (kept.length = s.containers.length), s.leaf with
  | true, .fence fence => (⟨kept, if closesFence fence l then .nothing else .fence fence⟩, .fenced, l)
  | true, .html ends => (⟨kept, if endsHtml ends l then .nothing else .html ends⟩, .other, l)
  | true, .paragraph => startBlocks s kept true false l
  | true, .nothing => startBlocks s kept false false l
  | false, leaf => startBlocks s kept false (leaf = .paragraph) l

/-- A line of a document: the fence that is open before it and after it, what it is, and what its containers leave of it. -/
structure Reading where
  before : Option Fence
  after : Option Fence
  kind : LineKind
  inside : List UInt16

/-- The lines of a document, each with its content and its reading. -/
def readDocument {β : Type*} (content : β → List UInt16) (s : Blocks) : List β → List (β × Reading)
  | [] => []
  | line :: lines =>
    let next := readLine s (expandTabs 0 (content line))
    (line, ⟨s.fence, next.1.fence, next.2.1, next.2.2⟩) :: readDocument content next.1 lines

/-- Nothing is open. -/
def Blocks.start : Blocks := ⟨[], .nothing⟩

/-! ## What a reading says -/

/-- The lines that are read are the lines of the document. -/
theorem map_readDocument {β : Type*} (content : β → List UInt16) (s : Blocks) (lines : List β) :
    (readDocument content s lines).map Prod.fst = lines := by
  induction lines generalizing s with
  | nil => rfl
  | cons line lines ih => exact congrArg (line :: ·) (ih _)

/-- A line that starts a block is one of a fenced block when it opens its fence. -/
theorem leaf_of_fenced {inParagraph lazy : Bool} {l : List UInt16} (h : (leafOf inParagraph lazy l).2 = .fenced) :
    ∃ fence, (leafOf inParagraph lazy l).1 = .fence fence := by
  unfold leafOf at h ⊢
  cases hopen : openingFence l with
  | some fence =>
    simp only [hopen] at h ⊢
    split_ifs at h ⊢
    exact ⟨fence, rfl⟩
  | none =>
    cases hstart : htmlStart (inParagraph || lazy) (unindented l) with
    | some ends =>
      simp only [hopen, hstart] at h
      split_ifs at h
    | none =>
      simp only [hopen, hstart] at h
      split_ifs at h

/-- A fence is open before a line of a fenced block, or after it. -/
theorem fence_of_fenced {s : Blocks} {line : List UInt16} (h : (readLine s line).2.1 = .fenced) :
    s.fence.isSome = true ∨ (readLine s line).1.fence.isSome = true := by
  have hstarts : ∀ kept inParagraph lazy l, (startBlocks s kept inParagraph lazy l).2.1 = .fenced →
      (startBlocks s kept inParagraph lazy l).1.fence.isSome = true := by
    intro kept inParagraph lazy l h
    unfold startBlocks at h ⊢
    dsimp only at h ⊢
    split at h
    · rename_i hlazy
      obtain ⟨fence, hfence⟩ := leaf_of_fenced h
      rw [hfence] at hlazy
      simp at hlazy
    · rename_i hlazy
      obtain ⟨fence, hfence⟩ := leaf_of_fenced h
      rw [if_neg hlazy]
      simp [Blocks.fence, hfence]
  unfold readLine at h ⊢
  dsimp only at h ⊢
  split at h
  · rename_i fence _ hleaf
    exact .inl (by simp [Blocks.fence, hleaf])
  · cases h
  all_goals exact .inr (hstarts _ _ _ _ h)

end Markdown
