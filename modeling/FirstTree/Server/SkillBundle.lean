import FirstTree.Shared.SkillPaths

/-!
# The admission of Skill bundles by the server

The inspection of an uploaded ZIP before a Team Skill refers to it: one pass over the entries, the place of the manifest, the
paths that will be extracted, and the manifest itself. Decoding UTF-8 and the YAML of the frontmatter are the runtime's and a
library's.
-/

namespace FirstTree

/-- The manifest of a Skill as the frontmatter has it, a field that is no text left out. -/
structure StrictTeamSkillMarkdown (Meta : Type) where
  name : Option (List Char)
  description : Option (List Char)
  «namespace» : Option (List Char)
  metadata : Option Meta
  body : List Char

/-- How a manifest is read: its bytes as UTF-8, and its frontmatter. -/
structure ManifestReader (Meta : Type) where
  decodeUtf8 : List UInt8 → Option (List Char)
  parseStrictTeamSkillMarkdown : List Char → Except String (StrictTeamSkillMarkdown Meta)

/-- `SkillResourcePayload`. -/
structure SkillResourcePayload (Meta : Type) where
  name : List Char
  «namespace» : Option (List Char)
  description : List Char
  body : List Char
  metadata : Option Meta

/-- `ValidatedSkillBundle`. -/
structure ValidatedSkillBundle (Meta : Type) where
  name : List Char
  payload : SkillResourcePayload Meta

namespace SkillBundle

open SkillPaths

variable {Meta : Type}

/-- The path of an entry. -/
def validateEntryPath (U : Unicode) (raw : List Char) : Except String (List Char) := checkEntryPath U raw

/-- The bytes of an entry, empty when they are not captured; refused when they are more than the entry says or than the limit. -/
def readEntry (entry : ZipEntry) (captureLimit : Nat) : Except String (List UInt8) :=
  match entry.content with
  | .error reason => .error reason
  | .ok bytes =>
    if entry.uncompressedSize < bytes.length ∨ 0 < captureLimit ∧ captureLimit < bytes.length then
      .error ("Skill ZIP entry size is invalid: " ++ String.ofList entry.fileName)
    else .ok (if 0 < captureLimit then bytes else [])

/-- What the pass over the entries has gathered. -/
structure Scan where
  seenPaths : List (List Char)
  entries : List (List Char × EntryKind)
  skillMarkdown : List (List Char × List UInt8)
  entryCount : Nat
  fileCount : Nat
  totalUncompressed : Nat

/-- Nothing gathered. -/
def Scan.init : Scan :=
  { seenPaths := [], entries := [], skillMarkdown := [], entryCount := 0, fileCount := 0, totalUncompressed := 0 }

/-- `Map.set` on the manifests. -/
def setMarkdown (skillMarkdown : List (List Char × List UInt8)) (path : List Char) (bytes : List UInt8) :
    List (List Char × List UInt8) :=
  if skillMarkdown.any (·.1 == path) then skillMarkdown.map fun e => if e.1 == path then (path, bytes) else e
  else skillMarkdown ++ [(path, bytes)]

/-- One entry of the pass. -/
def visitEntry (U : Unicode) (scan : Scan) (entry : ZipEntry) : Except String Scan := do
  let normalized ← validateEntryPath U entry.fileName
  if maxEntries < scan.entryCount + 1 then
    throw ("Skill ZIP cannot contain more than " ++ toString maxEntries ++ " entries")
  let collisionKey := foldPortableTeamSkillPath U normalized
  if scan.seenPaths.contains collisionKey then throw ("Skill ZIP contains a duplicate path: " ++ String.ofList normalized)
  if entry.isEncrypted then throw ("Skill ZIP contains an encrypted entry: " ++ String.ofList normalized)
  let kind ← zipEntryKind entry normalized
  if kind = .directory ∧ entry.uncompressedSize ≠ 0 then
    throw ("Skill ZIP directory entry contains data: " ++ String.ofList normalized)
  let scan := { scan with
    seenPaths := collisionKey :: scan.seenPaths
    entries := scan.entries ++ [(normalized, kind)]
    entryCount := scan.entryCount + 1 }
  if kind = .directory then return scan
  if maxFiles < scan.fileCount + 1 then throw ("Skill ZIP cannot contain more than " ++ toString maxFiles ++ " files")
  if maxUncompressedBytes < scan.totalUncompressed + entry.uncompressedSize then
    throw ("Skill ZIP exceeds " ++ toString maxUncompressedBytes ++ " uncompressed bytes")
  let isManifest := isSkillMarkdown U normalized
  if isManifest ∧ maxSkillMarkdownBytes < entry.uncompressedSize then
    throw ("SKILL.md exceeds " ++ toString maxSkillMarkdownBytes ++ " bytes")
  let bytes ← readEntry entry (if isManifest then maxSkillMarkdownBytes else 0)
  return { scan with
    fileCount := scan.fileCount + 1
    totalUncompressed := scan.totalUncompressed + entry.uncompressedSize
    skillMarkdown := if isManifest then setMarkdown scan.skillMarkdown normalized bytes else scan.skillMarkdown }

/-- The top-level directory around the manifest, if there is one. The manifest is at the root or right inside of it. -/
def findWrapper (skillPath : List Char) (entries : List (List Char × EntryKind)) : Except String (Option (List Char)) := do
  let segments := segmentsOf skillPath
  if 2 < segments.length ∨ segments.getLast? ≠ some "SKILL.md".toList then
    throw "SKILL.md must be at the ZIP root or inside one top-level directory"
  if segments.length = 2 then
    let wrapper := segments.headD []
    if entries.any fun entry => entry.1 != wrapper && !(wrapper ++ ['/']).isPrefixOf entry.1 then
      throw "A wrapped Skill ZIP cannot contain files outside its top-level directory"
    if entries.any fun entry => entry.1 == wrapper && entry.2 != .directory then
      throw "A wrapped Skill ZIP anchor must be a directory"
    return some wrapper
  return none

/-- Where an entry is extracted: below the wrapper, which itself goes nowhere. -/
def targetOf (wrapper : Option (List Char)) (path : List Char) : List Char :=
  match wrapper with
  | some wrapper => if path = wrapper then [] else path.drop (wrapper.length + 1)
  | none => path

/-- What the extracted paths fold to, with their kinds, and the paths recorded. -/
structure Outputs where
  outputKinds : AList fun _ : List Char => EntryKind
  canonicalOutputPaths : CanonicalPaths

/-- One extracted path. -/
def addOutput (U : Unicode) (wrapper : Option (List Char)) (outputs : Outputs) (entry : List Char × EntryKind) :
    Except String Outputs := do
  let targetPath := targetOf wrapper entry.1
  if targetPath.isEmpty then return outputs
  if let some portableError := getPortableTeamSkillRelativePathError U targetPath entry.2 then
    throw ("Skill ZIP contains " ++ portableError)
  let firstSegment := (segmentsOf targetPath).headD []
  if foldPortableTeamSkillPath U firstSegment = foldPortableTeamSkillPath U ownershipMarker then
    throw ("Skill ZIP may not provide reserved file " ++ String.ofList ownershipMarker)
  let canonicalOutputPaths ← (recordPortableTeamSkillPath U outputs.canonicalOutputPaths targetPath).mapError
    ("Skill ZIP contains " ++ ·)
  let folded := foldPortableTeamSkillPath U targetPath
  if (outputs.outputKinds.lookup folded).isSome then
    throw ("Skill ZIP contains a duplicate extracted path: " ++ String.ofList targetPath)
  return { outputKinds := outputs.outputKinds.insert folded entry.2, canonicalOutputPaths := canonicalOutputPaths }

/-- A file among the extracted paths that another path lies below, by the keys they fold to. -/
def fileUsedAsDirectory (outputs : Outputs) : Option (List Char) :=
  outputs.outputKinds.keys.findSome? fun path =>
    if outputs.outputKinds.lookup path = some .file then
      outputs.outputKinds.keys.find? fun candidate => (path ++ ['/']).isPrefixOf candidate
    else none

/-- `SKILL_NAME_REGEX`. -/
def isSkillName (name : List Char) : Bool :=
  match name with
  | [] => false
  | c :: cs => c.isAlphanum && cs.all fun c => c.isAlphanum || c == '_' || c == '-'

/-- `skillResourcePayloadSchema`: the lengths of the fields. -/
def parsePayload (payload : SkillResourcePayload Meta) : Except String (SkillResourcePayload Meta) :=
  if payload.name.isEmpty || decide (100 < utf16Length payload.name) ||
      payload.namespace.any (fun n => n.isEmpty || decide (100 < utf16Length n)) || payload.description.isEmpty ||
      decide (1000 < utf16Length payload.description) || decide (256 * 1024 < utf16Length payload.body) then
    .error "Invalid Skill ZIP"
  else .ok payload

/-- The manifest read from its bytes. -/
def readManifest (U : Unicode) (M : ManifestReader Meta) (bytes : List UInt8) : Except String (ValidatedSkillBundle Meta) := do
  let some markdown := M.decodeUtf8 bytes | throw "SKILL.md must be valid UTF-8"
  let parsed ← (M.parseStrictTeamSkillMarkdown markdown).mapError ("SKILL.md frontmatter is invalid: " ++ ·)
  let name := parsed.name.getD []
  let description := (parsed.description.map ContextSourceLink.trim).getD []
  let «namespace» := (parsed.namespace.map ContextSourceLink.trim).filter fun n => !n.isEmpty
  if name.isEmpty ∨ 100 < utf16Length name ∨ !isSkillName name then
    throw "SKILL.md name must start with an alphanumeric and contain only letters, digits, _ or -"
  let _ ← normalizeTeamSkillTargetSlug U name
  if description.isEmpty ∨ 1000 < utf16Length description then
    throw "SKILL.md description is required and must be at most 1000 characters"
  if «namespace».any fun n => decide (100 < utf16Length n) || !isSkillName n then
    throw "SKILL.md namespace must contain only letters, digits, _ or -"
  let payload ← parsePayload
    { name := name, «namespace» := «namespace», description := description, body := ContextSourceLink.trim parsed.body,
      metadata := parsed.metadata }
  return { name := name, payload := payload }

/-- The inspection of a bundle. -/
def inspectZip (U : Unicode) (M : ManifestReader Meta) (zip : List ZipEntry) : Except String (ValidatedSkillBundle Meta) := do
  let scan ← zip.foldlM (visitEntry U) Scan.init
  match scan.skillMarkdown with
  | [(skillPath, bytes)] =>
    let wrapper ← findWrapper skillPath scan.entries
    let outputs ← scan.entries.foldlM (addOutput U wrapper) { outputKinds := ∅, canonicalOutputPaths := ∅ }
    if let some candidate := fileUsedAsDirectory outputs then
      throw ("Skill ZIP file is used as a directory: " ++ String.ofList candidate)
    readManifest U M bytes
  | _ => throw "Skill ZIP must contain exactly one SKILL.md"

end SkillBundle

end FirstTree
