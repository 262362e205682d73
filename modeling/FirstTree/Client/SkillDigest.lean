import FirstTree.Client.ManagedState
import FirstTree.Lib.ComparatorSort
import FirstTree.Lib.SelfDelimiting
import FirstTree.Shared.SkillPaths
import Mathlib.Logic.Embedding.Basic

/-!
# The digest of a Skill tree

The walk that hashes an installed tree, the same walk over a bundled source with the ownership marker it will get, and the copy
that stages a bundled source. A tree is what the file system says of each path below its root, with the names of a directory in
the order of `readdir`. The hash is an injective function, as a collision-free one would be.
-/

namespace FirstTree

open SelfDelimiting (utf8 decimal)

/-! ## Trees -/

/-- A name in a directory: not empty, without a slash and without a NUL. -/
structure FileName where
  text : List Char
  filled : text ≠ []
  noSlash : '/' ∉ text
  noNul : '\x00' ∉ text
  deriving DecidableEq

/-- What `lstat`, `readdir` and `readFile` say of a path. -/
inductive SkillNode where
  | file (mode : Nat) (content : List UInt8)
  | directory (mode : Nat) (names : List FileName)
  | symlink
  | special
  deriving DecidableEq

/-- A node without the order of its names. -/
inductive NodeShape where
  | file (mode : Nat) (content : List UInt8)
  | directory (mode : Nat)
  | symlink
  | special
  deriving DecidableEq

/-- The shape of a node. -/
def SkillNode.shape : SkillNode → NodeShape
  | .file mode content => .file mode content
  | .directory mode _ => .directory mode
  | .symlink => .symlink
  | .special => .special

/-- The tree below a root: a directory lists each of its names once, and nothing is outside a directory. -/
structure SkillTree where
  node : List FileName → Option SkillNode
  listed : ∀ path mode names, node path = some (.directory mode names) →
    names.Nodup ∧ ∀ name, name ∈ names ↔ (node (path ++ [name])).isSome = true
  parent : ∀ path name, (node (path ++ [name])).isSome = true → ∃ mode names, node path = some (.directory mode names)

/-- The shapes of the nodes of a tree. -/
def SkillTree.shapes (tree : SkillTree) (path : List FileName) : Option NodeShape := (tree.node path).map SkillNode.shape

/-- What is written below a root. -/
abbrev SkillDisk := List FileName → Option NodeShape

/-- Another reading of the same tree: every node is the same, the names may come in another order. -/
def SkillTree.SameTree (tree tree' : SkillTree) : Prop := tree'.shapes = tree.shapes

/-! ## The runtime -/

/-- `NodeJS.Platform`, as far as the modes depend on it. -/
inductive NodePlatform where
  | win32 | posix
  deriving DecidableEq, Repr

/-- `SkillTreeModePolicy`. -/
inductive SkillTreeModePolicy where
  | enforce_safe | normalize_bundled
  deriving DecidableEq, Repr

/-- The functions of the runtime: the tables of Unicode, the comparison of its locale, SHA-256, and the reading of a manifest. -/
structure SkillRuntime (δ : Type) where
  unicode : Unicode
  collation : Collation
  sha256 : List UInt8 ↪ δ
  stringify : List Char → List Char
  validateSkillManifest : SkillDisk → List Char → Except String (List Char)

namespace SkillDigest

open SkillPaths

variable {δ : Type}

/-- `MAX_SKILL_FILES`. -/
def maxMaterializedFiles : Nat := 257

/-- `MAX_SKILL_TOTAL_BYTES`. -/
def maxMaterializedBytes : Nat := 25 * 1024 * 1024 + 64 * 1024

/-- The relative path of a node, as text. -/
def relativeText (path : List FileName) : List Char := joinSegments (path.map (·.text))

/-- The relative path of a directory in a message. -/
def directoryText (path : List FileName) : String := if path = [] then "." else String.ofList (relativeText path)

/-- The names of a directory in the order of the locale. -/
def compareNames (env : SkillRuntime δ) (a b : FileName) : Ordering :=
  env.collation.localeCompare (String.ofList a.text) (String.ofList b.text)

/-- `names.sort`. -/
def sortNames (env : SkillRuntime δ) (names : List FileName) : List FileName := ComparatorSort.sortBy (compareNames env) names

/-- The loop over the names of a directory, which refuses two names that fold to the same key. -/
def visitNames {σ : Type} (env : SkillRuntime δ) (collision : String) (visit : FileName → σ → Except String σ) :
    List (List Char) → List FileName → σ → Except String σ
  | _, [], state => .ok state
  | caseInsensitiveNames, name :: names, state =>
    let folded := foldPortableTeamSkillPath env.unicode name.text
    if caseInsensitiveNames.contains folded then .error collision
    else
      match visit name state with
      | .error err => .error err
      | .ok state => visitNames env collision visit (folded :: caseInsensitiveNames) names state

/-- `normalizedBundledFileMode`. -/
def normalizedBundledFileMode (mode : Nat) : Nat := if mode &&& 0o111 = 0 then 0o600 else 0o700

/-- `hasUnsafeManagedWriteMode`. -/
def hasUnsafeManagedWriteMode (mode : Nat) (platform : NodePlatform) : Bool := platform != .win32 && mode &&& 0o022 != 0

/-! ## Hashing -/

/-- `virtualRootFile`. -/
structure VirtualRootFile where
  name : FileName
  content : List UInt8
  mode : Nat

/-- What has been hashed, and the tree's totals. -/
structure HashState where
  hashed : List UInt8
  files : Nat
  bytes : Nat

/-- Nothing hashed. -/
def HashState.init : HashState := { hashed := [], files := 0, bytes := 0 }

/-- The bytes hashed for a directory. -/
def directoryRecord (path : List FileName) : List UInt8 := utf8 ("directory".toList ++ '\x00' :: relativeText path ++ ['\x00'])

/-- The bytes hashed for a file. -/
def fileRecord (path : List FileName) (execute : Nat) (content : List UInt8) : List UInt8 :=
  utf8 ("file".toList ++ '\x00' :: relativeText path ++ '\x00' :: decimal execute ++ '\x00' :: decimal content.length ++ ['\x00'])
    ++ content ++ [0]

/-- A file counted and hashed. -/
def hashFile (path : List FileName) (mode : Nat) (content : List UInt8) (state : HashState) : Except String HashState :=
  if maxMaterializedFiles < state.files + 1 ∨ maxMaterializedBytes < state.bytes + content.length ∨
      maxUncompressedBytes < content.length then
    .error ("Skill tree exceeds configured bundle limits at " ++ String.ofList (relativeText path))
  else
    .ok { hashed := state.hashed ++ fileRecord path (mode &&& 0o111) content
          files := state.files + 1
          bytes := state.bytes + content.length }

/-- `assertManagedTreeModeSafe` where the policy asks for it. -/
def assertManagedTreeModeSafe (policy : SkillTreeModePolicy) (platform : NodePlatform) (mode : Nat) (kind where_ : String) :
    Except String Unit :=
  if policy = .enforce_safe ∧ hasUnsafeManagedWriteMode mode platform = true then
    .error ("Skill tree " ++ kind ++ " has unsafe group/other write permissions: " ++ where_)
  else .ok ()

/-- The mode of a file under a policy. -/
def modeUnder (policy : SkillTreeModePolicy) (mode : Nat) : Nat :=
  if policy = .normalize_bundled then normalizedBundledFileMode mode else mode

/-- `hashDirectoryRecursive`; the first argument is how many levels of directories are still allowed. -/
def hashDirectoryRecursive (env : SkillRuntime δ) (tree : SkillTree) (virtualRootFile : Option VirtualRootFile)
    (modePlatform : NodePlatform) (modePolicy : SkillTreeModePolicy) : Nat → List FileName → HashState → Except String HashState
  | 0, _, _ => .error ("Skill tree exceeds max directory depth " ++ toString maxDepth)
  | levels + 1, path, state =>
    match tree.node path with
    | some (.directory mode entries) => do
      assertManagedTreeModeSafe modePolicy modePlatform mode "directory" (directoryText path)
      let virtual := if path = [] then virtualRootFile else none
      let names := sortNames env (entries ++ (virtual.map (·.name)).toList)
      visitNames env ("Skill tree contains a case-insensitive path collision at " ++ directoryText path)
        (fun name state =>
          let relativePath := path ++ [name]
          match virtual.filter fun file => file.name == name && ! entries.contains name with
          | some file => do
            let mode := modeUnder modePolicy file.mode
            assertManagedTreeModeSafe modePolicy modePlatform mode "file" (String.ofList (relativeText relativePath))
            hashFile relativePath mode file.content state
          | none =>
            match tree.node relativePath with
            | none => .error ("Skill tree entry disappeared while hashing: " ++ String.ofList (relativeText relativePath))
            | some .symlink => .error ("Skill tree symlinks are not allowed: " ++ String.ofList (relativeText relativePath))
            | some (.directory _ _) =>
              hashDirectoryRecursive env tree virtualRootFile modePlatform modePolicy levels relativePath
                { state with hashed := state.hashed ++ directoryRecord relativePath }
            | some .special => .error ("Skill tree special files are not allowed: " ++ String.ofList (relativeText relativePath))
            | some (.file mode content) => do
              let mode := modeUnder modePolicy mode
              assertManagedTreeModeSafe modePolicy modePlatform mode "file" (String.ofList (relativeText relativePath))
              hashFile relativePath mode content state)
        [] names state
    | _ => .error ("Skill tree directory is not a directory: " ++ directoryText path)

/-- `digestDirectory`. -/
def digestDirectory (env : SkillRuntime δ) (tree : SkillTree) (modePlatform : NodePlatform) : Except String δ :=
  (hashDirectoryRecursive env tree none modePlatform .enforce_safe (maxDepth + 1) [] HashState.init).map fun s => env.sha256 s.hashed

/-- The name of the ownership marker. -/
def markerName : FileName := ⟨ownershipMarker, by decide, by decide, by decide⟩

/-- `ownershipMarkerContent`. -/
def ownershipMarkerContent (env : SkillRuntime δ) (key revision : List Char) : List UInt8 :=
  utf8 ("\x7b\n  \"schemaVersion\": 1,\n  \"key\": ".toList ++ env.stringify key ++ ",\n  \"revision\": ".toList ++
    env.stringify revision ++ "\n\x7d\n".toList)

/-- The marker of a Skill, before it is written. -/
def markerFile (env : SkillRuntime δ) (key revision : List Char) : VirtualRootFile :=
  { name := markerName, content := ownershipMarkerContent env key revision, mode := 0o600 }

/-- `digestBundledFinalTree`. -/
def digestBundledFinalTree (env : SkillRuntime δ) (source : SkillTree) (key revision : List Char) (modePlatform : NodePlatform) :
    Except String δ :=
  (hashDirectoryRecursive env source (some (markerFile env key revision)) modePlatform .normalize_bundled (maxDepth + 1) []
    HashState.init).map fun s => env.sha256 s.hashed

/-! ## Staging a bundled source -/

/-- What has been copied, and the tree's totals. -/
structure CopyState where
  disk : SkillDisk
  files : Nat
  bytes : Nat

/-- An empty staging directory's place. -/
def CopyState.init : CopyState := { disk := fun _ => none, files := 0, bytes := 0 }

/-- A path written. -/
def CopyState.write (state : CopyState) (path : List FileName) (shape : NodeShape) : CopyState :=
  { state with disk := Function.update state.disk path (some shape) }

/-- A file counted, checked and copied. -/
def copyFile (path : List FileName) (mode : Nat) (content : List UInt8) (state : CopyState) : Except String CopyState :=
  if maxMaterializedFiles < state.files + 1 then .error ("Skill bundle exceeds max file count " ++ toString maxMaterializedFiles)
  else if maxUncompressedBytes < content.length then
    .error ("Skill bundle file exceeds max size " ++ toString maxUncompressedBytes ++ ": " ++ String.ofList (relativeText path))
  else if maxMaterializedBytes < state.bytes + content.length then
    .error ("Skill bundle exceeds max total bytes " ++ toString maxMaterializedBytes)
  else
    .ok ({ state with files := state.files + 1, bytes := state.bytes + content.length }.write path
      (.file (normalizedBundledFileMode mode) content))

/-- `copySanitizedDirectory`; the first argument is how many levels of directories are still allowed. -/
def copySanitizedDirectory (env : SkillRuntime δ) (source : SkillTree) : Nat → List FileName → CopyState → Except String CopyState
  | 0, _, _ => .error ("Skill bundle exceeds max directory depth " ++ toString maxDepth)
  | levels + 1, path, state =>
    match source.node path with
    | some (.directory _ entries) =>
      visitNames env ("Skill bundle contains a case-insensitive path collision at " ++ directoryText path)
        (fun name state =>
          let relativePath := path ++ [name]
          if (getPortableTeamSkillSegmentError env.unicode name.text).isSome then
            .error ("Skill bundle contains an unsafe path segment: " ++ String.ofList name.text)
          else if path = [] ∧ name = markerName then
            .error ("Skill bundle may not provide reserved file " ++ String.ofList ownershipMarker)
          else
            match source.node relativePath with
            | none => .error ("ENOENT: " ++ String.ofList (relativeText relativePath))
            | some .symlink => .error ("Skill bundle symlinks are not allowed: " ++ String.ofList (relativeText relativePath))
            | some (.directory _ _) => copySanitizedDirectory env source levels relativePath state
            | some .special => .error ("Skill bundle special files are not allowed: " ++ String.ofList (relativeText relativePath))
            | some (.file mode content) => copyFile relativePath mode content state)
        [] (sortNames env entries) (state.write path (.directory 0o700))
    | _ => .error ("ENOTDIR: " ++ directoryText path)

/-- `copySanitizedSkillTree`, into an empty staging directory. -/
def copySanitizedSkillTree (env : SkillRuntime δ) (source : SkillTree) : Except String CopyState :=
  match source.node [] with
  | some (.directory _ _) => copySanitizedDirectory env source (maxDepth + 1) [] CopyState.init
  | _ => .error "bundled Skill source is not a directory"

/-- A bundled Skill to install: its source, its marker, and the names its manifest must have. -/
structure AllocatedBundledSkill where
  source : SkillTree
  key : List Char
  revision : List Char
  effectiveName : List Char
  isCore : Bool
  requestedSlug : List Char

/-- What `stageManagedSkill` leaves in the staging directory of a bundled source: the copy, the marker, and a manifest that is
valid. -/
def stagedDisk (env : SkillRuntime δ) (allocated : AllocatedBundledSkill) : Except String SkillDisk := do
  let copied ← copySanitizedSkillTree env allocated.source
  let marker := markerFile env allocated.key allocated.revision
  let disk := (copied.write [marker.name] (.file marker.mode marker.content)).disk
  let name ← env.validateSkillManifest disk allocated.effectiveName
  if allocated.isCore = true ∧ name ≠ allocated.requestedSlug then
    throw ("bundled Core Skill manifest name \"" ++ String.ofList name ++ "\" does not match \"" ++
      String.ofList allocated.requestedSlug ++ "\"")
  pure disk

end SkillDigest

end FirstTree
