import FirstTree.Lib.PathStack
import FirstTree.Shared.ContextSourceLink

/-!
# Paths of documents

The form of a workspace-relative document path that the runtime, the server and the web agree on, and the keys of documents in the
workspace of another agent. Texts are lists of characters.
-/

namespace FirstTree

/-- What `parseWorkspaceDocKey` finds in a key. -/
structure WorkspaceDocKey where
  agentSlug : List Char
  chatId : List Char
  rel : List Char
  deriving DecidableEq, Repr

namespace DocPath

open ContextSourceLink (trim)

/-! ## Paths -/

/-- `[a-z0-9+.-]`, ignoring case. -/
def isSchemeChar (c : Char) : Bool := c.isAlphanum || c = '+' || c = '.' || c = '-'

/-- `SCHEME_RE`. No character of a scheme is a colon, so the longest run is the only one that can match. -/
def hasScheme : List Char → Bool
  | [] => false
  | c :: rest => c.isAlpha && (rest.dropWhile isSchemeChar).head? = some ':'

/-- The guards against links that are no workspace path, and against queries and fragments. -/
def isExternal (trimmed : List Char) : Bool :=
  trimmed.head? = some '#' || "//".toList.isPrefixOf trimmed || hasScheme trimmed || trimmed.contains '?' || trimmed.contains '#'

/-- What the loop of `normalizeDocLinkPath` does at a segment; a hidden one is refused. -/
def partMove (part : List Char) : Option PathStack.Move :=
  if part = [] ∨ part = ['.'] then some .stay
  else if part = ['.', '.'] then some .up
  else if part.head? = some '.' then none
  else some .down

/-- The segments the loop reads: one leading slash is stripped. -/
def pathParts (trimmed : List Char) : List (List Char) :=
  (if trimmed.head? = some '/' then trimmed.tail else trimmed).splitOn '/'

/-- `normalizeDocLinkPath`. -/
def normalizeDocLinkPath (raw : List Char) : Option (List Char) :=
  let trimmed := trim raw
  if trimmed = [] then none
  else if isExternal trimmed then none
  else
    match PathStack.resolve partMove [] (pathParts trimmed) with
    | none => none
    | some parts => if parts = [] then none else some (['/'].intercalate parts)

/-- `isCanonicalDocLinkPath`. -/
def isCanonicalDocLinkPath (path : List Char) : Bool :=
  match normalizeDocLinkPath path with
  | none => false
  | some normalized => normalized = path

/-! ## Keys -/

/-- Whether a slug or a chat id is one segment that is not hidden. -/
def isKeySegment (segment : List Char) : Bool := ! segment.isEmpty && ! segment.contains '/' && segment.head? ≠ some '.'

/-- `buildWorkspaceDocKey`. -/
def buildWorkspaceDocKey (agentSlug chatId rel : List Char) : Option (List Char) :=
  let slug := trim agentSlug
  let chat := trim chatId
  if isKeySegment slug && isKeySegment chat then
    match normalizeDocLinkPath rel with
    | none => none
    | some relNorm =>
      let key := slug ++ '/' :: (chat ++ '/' :: relNorm)
      if isCanonicalDocLinkPath key then some key else none
  else none

/-- `parseWorkspaceDocKey`. -/
def parseWorkspaceDocKey (key : List Char) : Option WorkspaceDocKey :=
  match normalizeDocLinkPath key with
  | none => none
  | some norm =>
    match norm.splitOn '/' with
    | agentSlug :: chatId :: part :: rest =>
      let rel := ['/'].intercalate (part :: rest)
      if agentSlug.isEmpty || chatId.isEmpty || rel.isEmpty then none else some ⟨agentSlug, chatId, rel⟩
    | _ => none

end DocPath

end FirstTree
