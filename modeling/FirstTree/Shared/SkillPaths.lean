import FirstTree.Lib.AssocList
import FirstTree.Shared.ContextSourceLink

/-!
# Portable paths of Team Skill bundles

The limits of a Team Skill bundle, the folding under which two spellings of a path may be merged by a file system, the errors of a
path that is not portable, and what a ZIP entry says of itself. Texts are lists of characters; the tables of Unicode are those of the
runtime.
-/

namespace FirstTree

/-- The Unicode functions of the runtime. Neither a normalization nor a case mapping looks across a slash. -/
structure Unicode where
  nfc : List Char → List Char
  nfkc : List Char → List Char
  toLowerCase : List Char → List Char
  toUpperCase : List Char → List Char
  nfc_slash : ∀ a b, nfc (a ++ '/' :: b) = nfc a ++ '/' :: nfc b
  nfkc_slash : ∀ a b, nfkc (a ++ '/' :: b) = nfkc a ++ '/' :: nfkc b
  toLowerCase_slash : ∀ a b, toLowerCase (a ++ '/' :: b) = toLowerCase a ++ '/' :: toLowerCase b
  toUpperCase_slash : ∀ a b, toUpperCase (a ++ '/' :: b) = toUpperCase a ++ '/' :: toUpperCase b

namespace SkillPaths

/-! ## Limits -/

/-- The most files of a bundle. -/
def maxFiles : Nat := 256

/-- The most entries of a bundle. -/
def maxEntries : Nat := 512

/-- The most uncompressed bytes of a bundle. -/
def maxUncompressedBytes : Nat := 25 * 1024 * 1024

/-- The most bytes of a manifest. -/
def maxSkillMarkdownBytes : Nat := 256 * 1024

/-- The deepest directory of a bundle. -/
def maxDepth : Nat := 16

/-- The most bytes, and the most code units, of a segment. -/
def maxSegmentLength : Nat := 240

/-- The most bytes, and the most code units, of a relative path. -/
def maxRelativePathLength : Nat := 768

/-- The longest target name. -/
def maxTargetNameLength : Nat := 63

/-- `TEAM_SKILL_OWNERSHIP_MARKER`. -/
def ownershipMarker : List Char := ".first-tree-managed.json".toList

/-- `WINDOWS_RESERVED_NAMES`. -/
def windowsReservedNames : List (List Char) :=
  ["con", "prn", "aux", "nul", "com1", "com2", "com3", "com4", "com5", "com6", "com7", "com8", "com9", "lpt1", "lpt2", "lpt3",
    "lpt4", "lpt5", "lpt6", "lpt7", "lpt8", "lpt9"].map String.toList

/-- `FIRST_TREE_CORE_SKILL_NAMES`. -/
def coreSkillNames : List (List Char) :=
  ["first-tree-welcome", "first-tree-seed", "first-tree-file-bug", "first-tree-qa", "first-tree-read", "first-tree-write",
    "context-tree-review", "context-tree-audit"].map String.toList

/-! ## Texts -/

/-- The length of a text in UTF-16 code units. -/
def utf16Length (t : List Char) : Nat := (t.map fun c => if 0x10000 ≤ c.toNat then 2 else 1).sum

/-- The length of a text in UTF-8 bytes. -/
def utf8Length (t : List Char) : Nat := (t.map Char.utf8Size).sum

/-- The segments of a path. -/
def segmentsOf (path : List Char) : List (List Char) := path.splitOn '/'

/-- The path of some segments. -/
def joinSegments (segments : List (List Char)) : List Char := ['/'].intercalate segments

/-- The last segment of a path. -/
def basename (path : List Char) : List Char := (segmentsOf path).getLastD []

/-- A control character. -/
def isControl (c : Char) : Bool := decide (c.toNat ≤ 0x1f) || c.toNat == 0x7f

/-! ## Folding -/

/-- The key under which a file system may merge two spellings. -/
def foldPortableTeamSkillPath (U : Unicode) (path : List Char) : List Char :=
  U.nfc (U.toLowerCase (U.toUpperCase (U.toLowerCase (U.nfkc path))))

/-- The paths recorded so far, by what they fold to. -/
abbrev CanonicalPaths := AList fun _ : List Char => List Char

/-- A path and its ancestors, the shortest first. -/
def candidatesOf (path : List Char) : List (List Char) :=
  (List.range (segmentsOf path).length).map fun i => joinSegments ((segmentsOf path).take (i + 1))

/-- One path recorded, unless another spelling of it is. -/
def recordCandidate (U : Unicode) (canonicalPaths : CanonicalPaths) (candidate : List Char) : Except String CanonicalPaths :=
  match canonicalPaths.lookup (foldPortableTeamSkillPath U candidate) with
  | some existing =>
    if existing ≠ candidate then
      .error ("portable path spelling collision between \"" ++ String.ofList existing ++ "\" and \"" ++
        String.ofList candidate ++ "\"")
    else .ok (canonicalPaths.insert (foldPortableTeamSkillPath U candidate) candidate)
  | none => .ok (canonicalPaths.insert (foldPortableTeamSkillPath U candidate) candidate)

/-- A path recorded with its ancestors. -/
def recordPortableTeamSkillPath (U : Unicode) (canonicalPaths : CanonicalPaths) (path : List Char) : Except String CanonicalPaths :=
  (candidatesOf path).foldlM (recordCandidate U) canonicalPaths

/-! ## Errors of paths -/

/-- Whether a segment cannot be a name on some file system. -/
def isUnsafeSegment (segment : List Char) : Bool :=
  segment.isEmpty || segment == ['.'] || segment == ['.', '.'] || segment.contains '/' || segment.contains '\\' ||
    segment.any isControl || segment.any (fun c => ['<', '>', ':', '"', '|', '?', '*'].contains c) ||
    segment.getLast? == some '.' || segment.getLast? == some ' '

/-- Whether a text or its normal form is longer than a limit, in bytes or in code units. -/
def exceeds (U : Unicode) (limit : Nat) (t : List Char) : Bool :=
  decide (limit < utf8Length t) || decide (limit < utf16Length t) || decide (limit < utf8Length (U.nfc t)) ||
    decide (limit < utf16Length (U.nfc t))

/-- The error of a segment, if any. -/
def getPortableTeamSkillSegmentError (U : Unicode) (segment : List Char) : Option String :=
  if isUnsafeSegment segment then some ("unsafe path segment: " ++ String.ofList segment)
  else if exceeds U maxSegmentLength segment then some ("path segment exceeds portable length limits: " ++ String.ofList segment)
  else if windowsReservedNames.contains (U.toLowerCase (((U.nfkc (U.nfc segment)).splitOn '.').headD [])) then
    some ("Windows-reserved path segment: " ++ String.ofList segment)
  else none

/-- The two kinds of entries. -/
inductive EntryKind where
  | directory
  | file
  deriving DecidableEq, Repr

/-- The error of a relative path, if any. -/
def getPortableTeamSkillRelativePathError (U : Unicode) (path : List Char) (kind : EntryKind) : Option String :=
  let segments := segmentsOf path
  let directoryDepth := if kind = .directory then segments.length else segments.length - 1
  if exceeds U maxRelativePathLength path then some ("relative path exceeds portable length limits: " ++ String.ofList path)
  else if maxDepth < directoryDepth then
    some ("relative path exceeds max directory depth " ++ toString maxDepth ++ ": " ++ String.ofList path)
  else segments.findSome? (getPortableTeamSkillSegmentError U)

/-! ## Target slugs -/

/-- A lowercase letter or a digit. -/
def isSlugChar (c : Char) : Bool := c.isLower || c.isDigit

/-- Every run of other characters becomes one dash. -/
def dashed : List Char → List Char
  | [] => []
  | c :: cs =>
    if isSlugChar c then c :: dashed cs
    else
      match dashed cs with
      | '-' :: rest => '-' :: rest
      | rest => '-' :: rest

/-- The text without a leading and a trailing dash. -/
def trimDashes (t : List Char) : List Char :=
  let t := if t.head? = some '-' then t.drop 1 else t
  if t.getLast? = some '-' then t.dropLast else t

/-- The directory name of a Skill. -/
def normalizeTeamSkillTargetSlug (U : Unicode) (input : List Char) : Except String (List Char) :=
  if input.contains '/' || input.contains '\\' || input.any isControl then
    .error "Skill name contains a path separator or control character"
  else
    let slug := trimDashes (dashed (U.toLowerCase (ContextSourceLink.trim (U.nfkc input))))
    if slug.isEmpty || decide (maxTargetNameLength < slug.length) || slug.head? == some '-' || windowsReservedNames.contains slug then
      .error ("Skill name \"" ++ String.ofList input ++ "\" does not produce a portable target slug")
    else if coreSkillNames.contains slug then
      .error ("Skill name \"" ++ String.ofList input ++ "\" is reserved by First Tree")
    else .ok slug

/-! ## Entries of a ZIP -/

/-- An entry as its central directory describes it, and what reading it yields. -/
structure ZipEntry where
  fileName : List Char
  versionMadeBy : Nat
  externalFileAttributes : Nat
  generalPurposeBitFlag : Nat
  uncompressedSize : Nat
  content : Except String (List UInt8)

/-- A drive letter and a colon. -/
def startsWithDrive (raw : List Char) : Bool := raw.head?.any Char.isAlpha && raw[1]? == some ':'

/-- The path of an entry, without the slash at the end of a directory; refused when it is not a plain relative path. -/
def checkEntryPath (U : Unicode) (raw : List Char) : Except String (List Char) :=
  if raw.isEmpty || raw.contains '\x00' || raw.contains '\\' then .error "Skill ZIP contains an invalid path"
  else if raw.head? == some '/' || startsWithDrive raw then
    .error ("Skill ZIP contains an absolute path: " ++ String.ofList raw)
  else
    let normalized := if raw.getLast? = some '/' then raw.dropLast else raw
    let segments := segmentsOf normalized
    if segments.any fun segment => segment.isEmpty || segment == ['.'] || segment == ['.', '.'] then
      .error ("Skill ZIP contains an unsafe path: " ++ String.ofList raw)
    else
      match segments.findSome? (getPortableTeamSkillSegmentError U) with
      | some portableError => .error ("Skill ZIP contains " ++ portableError)
      | none => .ok normalized

/-- Whether the attributes of an entry are those of Unix. -/
def ZipEntry.isUnix (entry : ZipEntry) : Bool := entry.versionMadeBy >>> 8 == 3

/-- The kind of an entry; a symbolic link or a special file is refused. -/
def zipEntryKind (entry : ZipEntry) (normalizedPath : List Char) : Except String EntryKind :=
  let unixMode := if entry.isUnix then entry.externalFileAttributes >>> 16 else 0
  let unixType := unixMode &&& 0o170000
  let directory := entry.fileName.getLast? == some '/'
  if unixType = 0o120000 then .error ("Skill ZIP cannot contain symlinks: " ++ String.ofList normalizedPath)
  else if unixType ≠ 0 ∧ unixType ≠ 0o040000 ∧ unixType ≠ 0o100000 then
    .error ("Skill ZIP cannot contain special files: " ++ String.ofList normalizedPath)
  else if unixType = 0o040000 ∧ !directory then
    .error ("Skill ZIP directory entry must end with '/': " ++ String.ofList normalizedPath)
  else if unixType = 0o100000 ∧ directory then
    .error ("Skill ZIP regular file entry cannot end with '/': " ++ String.ofList normalizedPath)
  else .ok (if directory || unixType = 0o040000 then .directory else .file)

/-- Whether an entry is encrypted. -/
def ZipEntry.isEncrypted (entry : ZipEntry) : Bool := entry.generalPurposeBitFlag &&& 1 != 0

/-- Whether a path is that of a manifest, whatever its case. -/
def isSkillMarkdown (U : Unicode) (path : List Char) : Bool := U.toLowerCase (basename path) == "skill.md".toList

end SkillPaths

end FirstTree
