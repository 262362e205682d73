import Mathlib.Data.List.Sort
import FirstTree.Lib.Scan

/-!
# Mentions

The two resolvers of `@name` mentions in a message: the one the server routes by, which deletes the code regions of the text and scans
what is left, and the one the composer draws chips by, which scans the text itself and skips the matches inside code regions. Texts
are lists of characters, and `toLowerCase` is a parameter of both.
-/

namespace FirstTree

/-- A participant of a chat, by what mentions need of it. -/
structure MentionParticipant where
  agentId : List Char
  name : Option (List Char)

/-- A slice of a message. -/
inductive MentionSegment where
  | text (value : List Char)
  | mention (value name agentId : List Char)
  deriving DecidableEq

namespace Mentions

open Scan

/-! ## `MENTION_REGEX` -/

/-- `[A-Za-z0-9_-]`. -/
def isNameChar (c : Char) : Bool := c.isAlphanum || c = '_' || c = '-'

/-- `[A-Za-z0-9_.@-]`, the characters no mention follows. -/
def blocksMention (c : Char) : Bool := isNameChar c || c = '.' || c = '@'

/-- The name after an `@`: the run of name characters, if it starts with a letter or a digit, has at most 64 characters and no slash
follows it. A shorter match would be followed by a name character, so the run is the only one. -/
def nameAt (rest : List Char) : Option (List Char) :=
  let run := rest.takeWhile isNameChar
  if run.head?.any Char.isAlphanum ∧ run.length ≤ 64 ∧ (rest.dropWhile isNameChar).head? ≠ some '/' then some run else none

/-- The match at the head of a text, by the character before it. -/
def mentionAt (prev : Option Char) : List Char → Option (List Char)
  | [] => none
  | c :: rest => if c = '@' ∧ ! prev.any blocksMention then nameAt rest else none

/-- The matches in a text of characters that carry a position: the position of the `@` and the name. A name holds no `@`, so matches
do not overlap. -/
def mentionsFrom (prev : Option Char) : List (Char × Nat) → List (Nat × List Char)
  | [] => []
  | (c, i) :: rest =>
    match mentionAt prev (c :: rest.map (·.1)) with
    | some name => (i, name) :: mentionsFrom (some c) rest
    | none => mentionsFrom (some c) rest

/-- `content.matchAll(MENTION_REGEX)`. -/
def matchMentions (content : List Char) : List (Nat × List Char) :=
  mentionsFrom none content.zipIdx

/-! ## Code regions -/

/-- How far the next three fence characters are. -/
def nextFence (fence : Char) : List Char → Option Nat
  | [] => none
  | c :: rest => if [fence, fence, fence].isPrefixOf (c :: rest) then some 0 else (nextFence fence rest).map (· + 1)

/-- A fenced block at the head of a text: three fence characters up to the next three. -/
def fencedAt (fence : Char) (l : List Char) : Option Nat :=
  if [fence, fence, fence].isPrefixOf l then (nextFence fence (l.drop 3)).map (3 + · + 3) else none

/-- A character that is no backtick and no newline. -/
def isInlineChar (c : Char) : Bool := c ≠ '\x60' && c ≠ '\n'

/-- An inline code span at the head of a text: backticks around at least one character, on one line. -/
def inlineAt : List Char → Option Nat
  | [] => none
  | c :: rest =>
    let body := rest.takeWhile isInlineChar
    if c = '\x60' ∧ body ≠ [] ∧ (rest.dropWhile isInlineChar).head? = some '\x60' then some (body.length + 2) else none

/-- The three deletions of `stripCode`, on characters that carry more than the matchers read. -/
def strip {α : Type} (char : α → Char) (l : List α) : List α :=
  eraseAll inlineAt char 0 (eraseAll (fencedAt '~') char 0 (eraseAll (fencedAt '\x60') char 0 l))

/-- `stripCode`. -/
def stripCode (content : List Char) : List Char :=
  strip id content

/-- The merging loop of `codeRanges`: `last` is the range that grows. -/
def mergeRanges (last : Nat × Nat) : List (Nat × Nat) → List (Nat × Nat)
  | [] => [last]
  | next :: rest =>
    if next.1 ≤ last.2 then mergeRanges (last.1, max last.2 next.2) rest else last :: mergeRanges next rest

/-- The code regions of a text, one pattern after the other. -/
def codeMatches (content : List Char) : List (Nat × Nat) :=
  matchAll (fencedAt '\x60') 0 0 content ++ matchAll (fencedAt '~') 0 0 content ++ matchAll inlineAt 0 0 content

/-- `codeRanges`. -/
def codeRanges (content : List Char) : List (Nat × Nat) :=
  let ranges := codeMatches content
  if ranges.length ≤ 1 then ranges
  else
    match ranges.insertionSort (·.1 ≤ ·.1) with
    | [] => []
    | first :: rest => mergeRanges first rest

/-- `isInCodeRange`. -/
def isInCodeRange (index : Nat) : List (Nat × Nat) → Bool
  | [] => false
  | (start, stop) :: rest => if index < start then false else if index < stop then true else isInCodeRange index rest

/-! ## The resolvers -/

variable (toLowerCase : List Char → List Char)

/-- A participant has a name. -/
def hasName (p : MentionParticipant) : Bool := p.name.any (· ≠ [])

/-- `nameMap.get`: the last participant of that name. -/
def resolve (participants : List MentionParticipant) (token : List Char) : Option MentionParticipant :=
  participants.reverse.find? fun p => p.name.any fun name => name ≠ [] && toLowerCase name = toLowerCase token

/-- `extractMentions`. -/
def extractMentions (content : List Char) (participants : List MentionParticipant) : List (List Char) :=
  if participants.any hasName then
    (((matchMentions (stripCode content)).filterMap fun m => (resolve toLowerCase participants m.2).map (·.agentId)).filter
      (· ≠ [])).eraseDups
  else []

/-- The segments from `cursor` on. -/
def segmentsFrom (content : List Char) (participants : List MentionParticipant) (skipRanges : List (Nat × Nat)) :
    Nat → List (Nat × List Char) → List MentionSegment
  | cursor, [] => if cursor < content.length then [.text (content.drop cursor)] else []
  | cursor, (index, token) :: rest =>
    if isInCodeRange index skipRanges then segmentsFrom content participants skipRanges cursor rest
    else
      match resolve toLowerCase participants token with
      | none => segmentsFrom content participants skipRanges cursor rest
      | some p =>
        (if cursor < index then [.text ((content.drop cursor).take (index - cursor))] else []) ++
          .mention ('@' :: token) (p.name.getD []) p.agentId ::
            segmentsFrom content participants skipRanges (index + (token.length + 1)) rest

/-- `segmentMentions`. -/
def segmentMentions (content : List Char) (participants : List MentionParticipant) : List MentionSegment :=
  if content = [] then []
  else if participants.any hasName then
    segmentsFrom toLowerCase content participants (codeRanges content) 0 (matchMentions content)
  else [.text content]

/-- The agents of the chips. -/
def mentionedAgents (segments : List MentionSegment) : List (List Char) :=
  segments.filterMap fun
    | .text _ => none
    | .mention _ _ agentId => some agentId

end Mentions

end FirstTree
