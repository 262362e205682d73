import FirstTree.Shared.SkillPaths

/-!
# The inspection of Skill bundles by the client

The client plans the extraction of a downloaded bundle before it writes anything: one pass over the entries, the place of the
manifest, and the path each entry is extracted to.
-/

namespace FirstTree

namespace SkillZip

open SkillPaths

/-- An entry of the pass. -/
structure RawEntry where
  sourcePath : List Char
  normalizedPath : List Char
  kind : EntryKind
  mode : Nat
  size : Nat

/-- `ZipSkillEntry`: an entry with the path it is extracted to, empty for the wrapper. -/
structure ZipSkillEntry where
  sourcePath : List Char
  targetPath : List Char
  kind : EntryKind
  mode : Nat
  size : Nat

/-- The path of an entry. -/
def validateZipEntryPath (U : Unicode) (raw : List Char) : Except String (List Char) := checkEntryPath U raw

/-- The mode an entry is written with: the owner may use it, and nobody else may write it. -/
def safeZipMode (entry : ZipEntry) (kind : EntryKind) : Nat :=
  if !entry.isUnix then if kind = .directory then 0o700 else 0o600
  else
    let mode := (entry.externalFileAttributes >>> 16) &&& 0o777
    if kind = .directory then 0o700 ||| (mode &&& 0o055)
    else 0o600 ||| (if mode &&& 0o111 ≠ 0 then 0o100 else 0) ||| (mode &&& 0o055)

/-- The largest integer that a number holds exactly. -/
def maxSafeSize : Nat := 9007199254740991

/-- What the pass over the entries has gathered. -/
structure Scan where
  seenRawPaths : List (List Char)
  rawEntries : List RawEntry
  entryCount : Nat
  fileCount : Nat
  totalBytes : Nat

/-- Nothing gathered. -/
def Scan.init : Scan := { seenRawPaths := [], rawEntries := [], entryCount := 0, fileCount := 0, totalBytes := 0 }

/-- The limits of the files. -/
def checkFile (U : Unicode) (scan : Scan) (normalizedPath : List Char) (size : Nat) : Except String Unit := do
  if maxFiles < scan.fileCount + 1 then throw ("Skill ZIP exceeds max file count " ++ toString maxFiles)
  if maxUncompressedBytes < size then
    throw ("Skill ZIP file exceeds max size " ++ toString maxUncompressedBytes ++ ": " ++ String.ofList normalizedPath)
  if maxUncompressedBytes < scan.totalBytes + size then
    throw ("Skill ZIP exceeds max total bytes " ++ toString maxUncompressedBytes)
  if isSkillMarkdown U normalizedPath ∧ maxSkillMarkdownBytes < size then
    throw ("SKILL.md exceeds max size " ++ toString maxSkillMarkdownBytes)

/-- One entry of the pass. -/
def visitEntry (U : Unicode) (scan : Scan) (entry : ZipEntry) : Except String Scan := do
  let normalizedPath ← validateZipEntryPath U entry.fileName
  if maxEntries < scan.entryCount + 1 then throw ("Skill ZIP exceeds max entry count " ++ toString maxEntries)
  let folded := foldPortableTeamSkillPath U normalizedPath
  if scan.seenRawPaths.contains folded then
    throw ("Skill ZIP contains a duplicate case-folded path: " ++ String.ofList normalizedPath)
  if entry.isEncrypted then throw ("Skill ZIP contains an encrypted entry: " ++ String.ofList normalizedPath)
  let kind ← zipEntryKind entry normalizedPath
  let size := entry.uncompressedSize
  if maxSafeSize < size then throw ("Skill ZIP entry has an invalid size: " ++ String.ofList normalizedPath)
  if kind = .directory ∧ size ≠ 0 then throw ("Skill ZIP directory entry contains data: " ++ String.ofList normalizedPath)
  if kind = .file then checkFile U scan normalizedPath size
  return {
    seenRawPaths := folded :: scan.seenRawPaths
    rawEntries := scan.rawEntries ++ [{ sourcePath := entry.fileName, normalizedPath := normalizedPath, kind := kind,
                                        mode := safeZipMode entry kind, size := size }]
    entryCount := scan.entryCount + 1
    fileCount := if kind = .file then scan.fileCount + 1 else scan.fileCount
    totalBytes := if kind = .file then scan.totalBytes + size else scan.totalBytes }

/-- The top-level directory around the manifest, if there is one. -/
def findWrapper (manifest : RawEntry) (rawEntries : List RawEntry) : Except String (Option (List Char)) := do
  let manifestSegments := segmentsOf manifest.normalizedPath
  if 2 < manifestSegments.length ∨ manifestSegments.getLast? ≠ some "SKILL.md".toList then
    throw "SKILL.md must be at the ZIP root or inside one top-level directory"
  if manifestSegments.length = 2 then
    let wrapper := manifestSegments.headD []
    if rawEntries.any fun entry => entry.normalizedPath != wrapper && !(wrapper ++ ['/']).isPrefixOf entry.normalizedPath then
      throw "A wrapped Skill ZIP cannot contain files outside its top-level directory"
    if rawEntries.any fun entry => entry.normalizedPath == wrapper && entry.kind != .directory then
      throw "A wrapped Skill ZIP anchor must be a directory"
    return some wrapper
  return none

/-- Where an entry is extracted. -/
def targetOf (wrapper : Option (List Char)) (normalizedPath : List Char) : List Char :=
  match wrapper with
  | some wrapper => if normalizedPath = wrapper then [] else normalizedPath.drop (wrapper.length + 1)
  | none => normalizedPath

/-- The plan so far, with what its paths fold to and the paths recorded. -/
structure Plan where
  planned : List ZipSkillEntry
  outputKinds : AList fun _ : List Char => EntryKind
  canonicalOutputPaths : CanonicalPaths

/-- One entry planned. -/
def planEntry (U : Unicode) (wrapper : Option (List Char)) (plan : Plan) (entry : RawEntry) : Except String Plan := do
  let targetPath := targetOf wrapper entry.normalizedPath
  let next : ZipSkillEntry :=
    { sourcePath := entry.sourcePath, targetPath := targetPath, kind := entry.kind, mode := entry.mode, size := entry.size }
  if targetPath.isEmpty then return { plan with planned := plan.planned ++ [next] }
  let segments := segmentsOf targetPath
  if let some portableError := getPortableTeamSkillRelativePathError U targetPath entry.kind then
    throw ("Skill ZIP contains " ++ portableError)
  if foldPortableTeamSkillPath U (segments.headD []) = foldPortableTeamSkillPath U ownershipMarker then
    throw ("Skill ZIP may not provide reserved file " ++ String.ofList ownershipMarker)
  let canonicalOutputPaths ← (recordPortableTeamSkillPath U plan.canonicalOutputPaths targetPath).mapError
    ("Skill ZIP contains " ++ ·)
  let folded := foldPortableTeamSkillPath U targetPath
  if (plan.outputKinds.lookup folded).isSome then
    throw ("Skill ZIP contains a duplicate extracted path: " ++ String.ofList targetPath)
  return {
    planned := plan.planned ++ [next]
    outputKinds := plan.outputKinds.insert folded entry.kind
    canonicalOutputPaths := canonicalOutputPaths }

/-- The proper ancestors of a path. -/
def ancestorsOf (path : List Char) : List (List Char) :=
  (List.range ((segmentsOf path).length - 1)).map fun i => joinSegments ((segmentsOf path).take (i + 1))

/-- A planned path with a file among the keys its ancestors fold to. -/
def usesFileAsDirectory (U : Unicode) (plan : Plan) (entry : ZipSkillEntry) : Bool :=
  !entry.targetPath.isEmpty && (ancestorsOf entry.targetPath).any fun ancestor =>
    plan.outputKinds.lookup (foldPortableTeamSkillPath U ancestor) == some .file

/-- Whether an entry is a manifest. -/
def isManifest (U : Unicode) (entry : RawEntry) : Bool := entry.kind == .file && isSkillMarkdown U entry.normalizedPath

/-- The inspection of a bundle: the plan of its extraction. -/
def inspectSkillZip (U : Unicode) (zip : List ZipEntry) : Except String (List ZipSkillEntry) := do
  let scan ← zip.foldlM (visitEntry U) Scan.init
  match scan.rawEntries.filter (isManifest U) with
  | [manifest] =>
    let wrapper ← findWrapper manifest scan.rawEntries
    let plan ← scan.rawEntries.foldlM (planEntry U wrapper) { planned := [], outputKinds := ∅, canonicalOutputPaths := ∅ }
    if let some entry := plan.planned.find? (usesFileAsDirectory U plan) then
      throw ("Skill ZIP file is used as a directory: " ++ String.ofList entry.targetPath)
    return plan.planned
  | _ => throw "Skill ZIP must contain exactly one SKILL.md"

end SkillZip

end FirstTree
