import FirstTree.Lib.Regex
import FirstTree.Lib.Scan
import FirstTree.Lib.Utf16

/-!
# Inline constructs of Markdown

The inline links and the HTML tags of a line of CommonMark. A line is read from left to right. Escapes, code spans, autolinks and tags
come first, so that no bracket in them counts. A closing bracket is matched with the last opening one that is still open, and makes a
link with it when a destination in parentheses follows; no link is inside another one.
-/

namespace Markdown

open Regex Utf16

/-! ## Characters -/

/-- The code unit lies between two characters. -/
def between (low high : Char) (c : UInt16) : Bool := unit low ≤ c && c ≤ unit high

/-- An ASCII letter. -/
def isLetter (c : UInt16) : Bool := between 'a' 'z' c || between 'A' 'Z' c

/-- An ASCII digit. -/
def isDigit (c : UInt16) : Bool := between '0' '9' c

/-- An ASCII punctuation character, which a backslash escapes. -/
def isPunctuation (c : UInt16) : Bool := between '!' '/' c || between ':' '@' c || between '[' '\x60' c || between '\x7b' '~' c

/-- A space or a tab. -/
def isBlank (c : UInt16) : Bool := c = unit ' ' || c = unit '\t'

/-- A space or an ASCII control character. -/
def isControl (c : UInt16) : Bool := c ≤ 0x20 || c = 0x7f

/-- One given character. -/
def chr (c : Char) : Regex UInt16 := .char (· == unit c)

/-- A character other than some. -/
def noneOf (s : String) : Regex UInt16 := .char fun c => ! (units s).contains c

/-- One match of a pattern or more. -/
def plus (r : Regex UInt16) : Regex UInt16 := .seq r (.star r)

/-- Blanks. -/
def blanks : Regex UInt16 := .star (.char isBlank)

/-! ## Tags -/

/-- A tag name. -/
def tagName : Regex UInt16 := .seq (.char isLetter) (.star (.char fun c => isLetter c || isDigit c || c = unit '-'))

/-- The name of an attribute. -/
def attributeName : Regex UInt16 :=
  .seq (.char fun c => isLetter c || (units "_:").contains c)
    (.star (.char fun c => isLetter c || isDigit c || (units "_.:-").contains c))

/-- The value of an attribute: unquoted, or in quotes of either kind. -/
def attributeValue : Regex UInt16 :=
  .alt (plus (.char fun c => ! isControl c && ! (units "\"'=<>\x60").contains c))
    (.alt (seqs [chr '\'', .star (noneOf "'"), chr '\'']) (seqs [chr '"', .star (noneOf "\""), chr '"']))

/-- An attribute, with the blanks before it. -/
def tagAttribute : Regex UInt16 :=
  seqs [plus (.char isBlank), attributeName, opt (seqs [blanks, chr '=', blanks, attributeValue])]

/-- An open tag. -/
def openTag : Regex UInt16 := seqs [chr '<', tagName, .star tagAttribute, blanks, opt (chr '/'), chr '>']

/-- A closing tag. -/
def closingTag : Regex UInt16 := seqs [chr '<', chr '/', tagName, blanks, chr '>']

/-- From an opening to the first closing text. -/
def enclosed (opening closing : String) : Regex UInt16 :=
  seqs [literal (units opening), .star (.seq (.notAhead (literal (units closing))) (.char fun _ => true)), literal (units closing)]

/-- An HTML tag: an open tag, a closing tag, a comment, a processing instruction, a declaration or a CDATA section. -/
def htmlTag : Regex UInt16 :=
  [openTag, closingTag, literal (units "<!-->"), literal (units "<!--->"), enclosed "<!--" "-->", enclosed "<?" "?>",
    seqs [literal (units "<!"), .char isLetter, .star (noneOf ">"), chr '>'], enclosed "<![CDATA[" "]]>"].foldr .alt
      (.notAhead .empty)

/-- An autolink: a scheme and an address, or an address of mail. -/
def autolink : Regex UInt16 :=
  .alt
    (seqs [chr '<', .char isLetter, plus (.char fun c => isLetter c || isDigit c || (units "+.-").contains c), chr ':',
      .star (.char fun c => ! isControl c && ! (units "<>").contains c), chr '>'])
    (seqs [chr '<', plus (.char fun c => isLetter c || isDigit c || (units ".!#$%&'*+/=?^_\x60\x7b|\x7d~-").contains c), chr '@',
      plus (.char fun c => isLetter c || isDigit c || (units ".-").contains c), chr '>'])

/-- How long the match of a pattern at the head of a text is. -/
def matchLength (r : Regex UInt16) (l : List UInt16) : Option Nat := (r.exec l).map (·.consumed.length)

/-! ## Links -/

/-- A destination between angle brackets. -/
def angleDestination : Regex UInt16 :=
  seqs [chr '<', .star (.alt (.seq (chr '\\') (.char fun _ => true)) (noneOf "<>\\")), chr '>']

/-- What follows a destination without angle brackets, in which so many parentheses are open: it goes on to a blank or to a closing
parenthesis that closes none of its own. -/
def afterDestination : Nat → List UInt16 → Option (List UInt16)
  | _, [] => none
  | depth, [c] => if c = unit ')' ∧ depth = 0 then some [c] else none
  | depth, c :: d :: l =>
    if c = unit '\\' ∧ isPunctuation d = true then afterDestination depth l
    else if c = unit '(' then afterDestination (depth + 1) (d :: l)
    else if c = unit ')' then
      match depth with
      | 0 => some (c :: d :: l)
      | depth + 1 => afterDestination depth (d :: l)
    else if isControl c then (if depth = 0 then some (c :: d :: l) else none)
    else afterDestination depth (d :: l)

/-- A title, in quotes of either kind or in parentheses. -/
def title : Regex UInt16 :=
  [('"', '"', "\"\\"), ('\'', '\'', "'\\"), ('(', ')', "()\\")].foldr
    (fun q r => .alt (seqs [chr q.1, .star (.alt (.seq (chr '\\') (.char fun _ => true)) (noneOf q.2.2)), chr q.2.1]) r)
    (.notAhead .empty)

/-- What follows the match of a pattern at the head of a text, where it matches. -/
def after (r : Regex UInt16) (l : List UInt16) : Option (List UInt16) := (r.exec l).map (·.rest)

/-- What follows the parentheses of a link: a destination and a title, each of which may be missing, with blanks around them. -/
def afterParentheses : List UInt16 → Option (List UInt16)
  | [] => none
  | c :: l =>
    if c = unit '(' then do
      let l := l.dropWhile isBlank
      let l ← if l.head? = some (unit '<') then after angleDestination l else afterDestination 0 l
      let l := if (l.head?.any isBlank) then ((after title (l.dropWhile isBlank)).getD l).dropWhile isBlank else l
      if l.head? = some (unit ')') then some l.tail else none
    else none

/-! ## A line -/

/-- An opening bracket: where it is, whether it is that of an image, and whether a link may still start with it. -/
structure Bracket where
  start : Nat
  image : Bool
  active : Bool

/-- The constructs that are looked for. -/
inductive Construct where
  | link (start stop : Nat)
  | tag (start stop : Nat)
  deriving DecidableEq

/-- How far the code span goes that a run of so many backticks opens: to the end of the next run of as many. -/
def codeSpanLength (n : Nat) : Nat → List UInt16 → Option Nat
  | 0, _ => none
  | fuel + 1, l =>
    let text := l.takeWhile (· ≠ unit '\x60')
    let run := (l.dropWhile (· ≠ unit '\x60')).takeWhile (· = unit '\x60')
    if run = [] then none
    else if run.length = n then some (text.length + n)
    else (codeSpanLength n fuel (l.drop (text.length + run.length))).map (· + (text.length + run.length))

/-- What is at a place of a line: the construct that ends or lies there, the brackets that are open behind it, and how much of the
line it takes. -/
def inlineAt (i : Nat) (open_ : List Bracket) (l : List UInt16) : Option Construct × List Bracket × Nat :=
  match l with
  | [] => (none, open_, 1)
  | c :: rest =>
    if c = unit '\\' then (none, open_, if rest.head?.any isPunctuation then 2 else 1)
    else if c = unit '\x60' then
      let n := (l.takeWhile (· = unit '\x60')).length
      (none, open_, n + (codeSpanLength n l.length (l.drop n)).getD 0)
    else if c = unit '<' then
      match matchLength autolink l, matchLength htmlTag l with
      | some n, _ => (none, open_, n)
      | none, some n => (some (.tag i (i + n)), open_, n)
      | none, none => (none, open_, 1)
    else if c = unit '!' ∧ rest.head? = some (unit '[') then (none, ⟨i, true, true⟩ :: open_, 2)
    else if c = unit '[' then (none, ⟨i, false, true⟩ :: open_, 1)
    else if c = unit ']' then
      match open_ with
      | [] => (none, [], 1)
      | bracket :: open_ =>
        match if bracket.active then afterParentheses rest else none with
        | none => (none, open_, 1)
        | some behind =>
          let n := l.length - behind.length
          if bracket.image then (none, open_, n)
          else (some (.link bracket.start (i + n)), open_.map fun b => if b.image then b else { b with active := false }, n)
    else (none, open_, 1)

/-- The constructs of a line, from position `i` on, when `skip` more characters belong to what was last read. -/
def constructs : Nat → Nat → List Bracket → List UInt16 → List Construct
  | _, _, _, [] => []
  | i, skip + 1, open_, _ :: l => constructs (i + 1) skip open_ l
  | i, 0, open_, c :: l =>
    let (found, open_, n) := inlineAt i open_ (c :: l)
    found.toList ++ constructs (i + 1) (n - 1) open_ l

/-- The inline links of a line. -/
def inlineLinks (line : List UInt16) : List (Nat × Nat) :=
  (constructs 0 0 [] line).filterMap fun
    | .link start stop => some (start, stop)
    | .tag _ _ => none

/-- The HTML tags of a line. -/
def htmlTags (line : List UInt16) : List (Nat × Nat) :=
  (constructs 0 0 [] line).filterMap fun
    | .link _ _ => none
    | .tag start stop => some (start, stop)

end Markdown
