import FirstTree.Lib.Collapsing
import FirstTree.Lib.Trimming
import FirstTree.Lib.Utf16

/-!
# Anchors of document comments

How the anchor of a comment is built from a selection in the rendered text, and how it is located in the source. Both work on the
source with its white space collapsed and go back to the source by a map of offsets. Texts are lists of UTF-16 code units.
-/

namespace FirstTree

/-- An anchor: the quoted source, and the source around it. -/
structure DocAnchor where
  exact_ : List UInt16
  prefixText : Option (List UInt16)
  suffixText : Option (List UInt16)
  deriving DecidableEq

/-- Offsets in the source. -/
structure DocAnchorRange where
  start : Nat
  stop : Nat
  deriving DecidableEq

/-- A selection, with the rendered text around it. -/
structure BuildDocAnchorInput where
  source : List UInt16
  selectedText : List UInt16
  renderedPrefix : Option (List UInt16)
  renderedSuffix : Option (List UInt16)

/-- A text with its white space collapsed, and the offset each of its characters comes from. -/
structure NormalizedText where
  text : List UInt16
  map : List Nat

namespace DocAnchor

open Utf16

/-- `ANCHOR_CONTEXT_CHARS`. -/
def anchorContextChars : Nat := 48

/-- `DOC_ANCHOR_EXACT_MAX`. -/
def docAnchorExactMax : Nat := 2000

/-- `DOC_ANCHOR_CONTEXT_MAX`. -/
def docAnchorContextMax : Nat := 500

/-- `slice(start, end)`. -/
def slice (l : List UInt16) (start stop : Nat) : List UInt16 := (l.take stop).drop start

/-! ## White space -/

/-- The loop of `normalizeWithMap` over what is left of a text, from the offset `i`. -/
def normalizeLoop (i : Nat) (text : List UInt16) (map : List Nat) (pendingSpace : Bool) : List UInt16 → NormalizedText
  | [] => ⟨text, map⟩
  | ch :: raw =>
    if isSpace ch then normalizeLoop (i + 1) text map (decide (0 < text.length)) raw
    else if pendingSpace then normalizeLoop (i + 1) (text ++ [unit ' '] ++ [ch]) (map ++ [i] ++ [i]) false raw
    else normalizeLoop (i + 1) (text ++ [ch]) (map ++ [i]) false raw

/-- `normalizeWithMap`. -/
def normalizeWithMap (raw : List UInt16) : NormalizedText := normalizeLoop 0 [] [] false raw

/-- `collapseWhitespace`. -/
def collapseWhitespace (raw : List UInt16) : List UInt16 := Collapsing.collapse isSpace (unit ' ') false raw

/-- `normalize`. -/
def normalize (raw : List UInt16) : List UInt16 := Trimming.trim isSpace (collapseWhitespace raw)

/-! ## Occurrences -/

/-- The places from `i` on where `indexOf` finds a text. -/
def occurrencesFrom (needle : List UInt16) (i : Nat) : List UInt16 → List Nat
  | [] => []
  | c :: l => if needle.isPrefixOf (c :: l) then i :: occurrencesFrom needle (i + 1) l else occurrencesFrom needle (i + 1) l

/-- `findAllOccurrences`. -/
def findAllOccurrences (haystack needle : List UInt16) : List Nat :=
  if needle.length = 0 then [] else occurrencesFrom needle 0 haystack

/-- `prefixOverlap`. -/
def prefixOverlap : List UInt16 → List UInt16 → Nat
  | c :: context, d :: neighborhood => if c = d then prefixOverlap context neighborhood + 1 else 0
  | _, _ => 0

/-- `suffixOverlap`. -/
def suffixOverlap (context neighborhood : List UInt16) : Nat := prefixOverlap context.reverse neighborhood.reverse

/-- The score of an occurrence. -/
def score (normSource : List UInt16) (needleLength : Nat) (normBefore normAfter : List UInt16) (start : Nat) : Nat :=
  let neighborhoodBefore := slice normSource (start - 200) start
  let neighborhoodAfter := slice normSource (start + needleLength) (start + needleLength + 200)
  suffixOverlap normBefore neighborhoodBefore + prefixOverlap normAfter neighborhoodAfter

/-- The loop of `pickOccurrence`: the best occurrence so far and its score. -/
def pickLoop (score : Nat → Nat) (best : Nat) (bestScore : Int) : List Nat → Nat
  | [] => best
  | start :: rest =>
    if bestScore < (score start : Int) then pickLoop score start (score start) rest else pickLoop score best bestScore rest

/-- `pickOccurrence`, where it starts. There is a first occurrence. -/
def pickOccurrence (normSource : List UInt16) (first : Nat) (rest : List Nat) (needleLength : Nat)
    (beforeContext afterContext : Option (List UInt16)) : Nat :=
  if rest.length = 0 ∨ beforeContext.getD [] = [] ∧ afterContext.getD [] = [] then first
  else
    let normBefore := collapseWhitespace (beforeContext.getD [])
    let normAfter := collapseWhitespace (afterContext.getD [])
    pickLoop (score normSource needleLength normBefore normAfter) first (-1) (first :: rest)

/-- `toRawRange`. -/
def toRawRange (norm : NormalizedText) (normStart normEnd : Nat) : DocAnchorRange :=
  ⟨norm.map.getD normStart 0, norm.map.getD (normEnd - 1) 0 + 1⟩

/-! ## Building and locating -/

/-- The range of the source that a text is picked in, which `buildDocAnchor` and `locateDocAnchor` look for in the same way. -/
def pickRange (norm : NormalizedText) (needle : List UInt16) (beforeContext afterContext : Option (List UInt16)) :
    Option DocAnchorRange :=
  match findAllOccurrences norm.text needle with
  | [] => none
  | first :: rest =>
    let picked := pickOccurrence norm.text first rest needle.length beforeContext afterContext
    some (toRawRange norm picked (picked + needle.length))

/-- The range that `buildDocAnchor` builds an anchor from. -/
def builtRange (input : BuildDocAnchorInput) : Option DocAnchorRange :=
  let normSelected := normalize input.selectedText
  if normSelected.length = 0 ∨ docAnchorExactMax < normSelected.length then none
  else pickRange (normalizeWithMap input.source) normSelected input.renderedPrefix input.renderedSuffix

/-- A text that is left out when it is empty. -/
def nonEmpty (l : List UInt16) : Option (List UInt16) := if 0 < l.length then some l else none

/-- `buildDocAnchor`. -/
def buildDocAnchor (input : BuildDocAnchorInput) : Option DocAnchor :=
  match builtRange input with
  | none => none
  | some range =>
    let quoted := slice input.source range.start range.stop
    if docAnchorExactMax < quoted.length then none
    else
      let before := slice input.source (range.start - anchorContextChars) range.start
      let after := slice input.source range.stop (range.stop + anchorContextChars)
      some
        { exact_ := quoted
          prefixText := (nonEmpty before).map fun l => l.drop (l.length - docAnchorContextMax)
          suffixText := (nonEmpty after).map fun l => l.take docAnchorContextMax }

/-- `locateInNormalized`. -/
def locateInNormalized (norm : NormalizedText) (anchor : DocAnchor) : Option DocAnchorRange :=
  let normExact := normalize anchor.exact_
  if normExact.length = 0 then none else pickRange norm normExact anchor.prefixText anchor.suffixText

/-- `locateDocAnchor`. -/
def locateDocAnchor (source : List UInt16) (anchor : DocAnchor) : Option DocAnchorRange :=
  locateInNormalized (normalizeWithMap source) anchor

/-- `locateDocAnchors`. -/
def locateDocAnchors (source : List UInt16) (anchors : List DocAnchor) : List (Option DocAnchorRange) :=
  anchors.map (locateInNormalized (normalizeWithMap source))

end DocAnchor

end FirstTree
