import Mathlib.Data.List.Infix
import Mathlib.Data.List.Sort

/-!
# The managed state and the transaction journal of the client

The ledger of the Skills the client manages in a workspace (`managed.json`) and the journal of the transaction under way
(`managed-skills-journal.json`): what an entry, a state and a journal must be to be read back, and what a state becomes when it is
written. A path below the workspace is the list of its segments between slashes.
-/

namespace FirstTree

/-- A portable path relative to the workspace, by its segments. -/
abbrev WorkspacePath := List String

/-- The path as it is written, with slashes. -/
def portable (path : WorkspacePath) : String := String.intercalate "/" path

/-- The directory of a path: all of its segments but the last. -/
def parentOf (path : WorkspacePath) : WorkspacePath := path.dropLast

/-- The last segment of a path. -/
def nameOf (path : WorkspacePath) : String := path.getLastD ""

/-- The comparison of two texts in the runtime's locale. -/
structure Collation where
  localeCompare : String → String → Ordering
  trans : Std.TransCmp localeCompare

/-- An entry of the ledger: which Skill, where, under which name, from which source, and the digest of what was installed. -/
structure ManagedSkillEntry where
  key : String
  target : WorkspacePath
  requestedSlug : String
  effectiveName : String
  revision : String
  installedDigest : String
  deriving DecidableEq, Repr

/-- The ledger: the version fence of the Team Resources and the entries. -/
structure ManagedState where
  resourceConfigVersion : Nat
  skills : List ManagedSkillEntry
  deriving DecidableEq, Repr

/-! ## Names and paths -/

/-- A lowercase letter or a digit. -/
def isLowerAlnum (c : Char) : Bool := c.isLower || c.isDigit

/-- A lowercase hexadecimal digit. -/
def isLowerHexDigit (c : Char) : Bool := c.isDigit || ('a' ≤ c && c ≤ 'f')

/-- `^[A-Za-z0-9][A-Za-z0-9._-]*$`. -/
def isTargetName (name : String) : Bool :=
  match name.toList with
  | [] => false
  | c :: cs => c.isAlphanum && cs.all fun c => c.isAlphanum || c == '.' || c == '_' || c == '-'

/-- `^[a-z0-9][a-z0-9-]{0,62}$`. -/
def isSafePersistedSkillName (name : String) : Bool :=
  match name.toList with
  | [] => false
  | c :: cs => isLowerAlnum c && cs.all (fun c => isLowerAlnum c || c == '-') && decide (cs.length ≤ 62)

/-- The root of the legacy resource Skills. -/
def legacyResourceSkillsRoot : WorkspacePath := [".first-tree", "resources", "skills"]

/-- The roots under which a persisted target may stand. -/
def persistedTargetRoots : List WorkspacePath :=
  [[".agents", "skills"], [".claude", "skills"], [".cursor", "skills"], [".grok", "skills"], [".kimi-code", "skills"],
    [".opencode", "skills"], legacyResourceSkillsRoot]

/-- A part of a path that no path may have. -/
def isUnsafePart (part : String) : Bool :=
  part == "" || part == "." || part == ".." || part.toList.contains '\\' || part.toList.contains '\x00'

/-- A target that may be persisted: a plain name directly under one of the roots. -/
def isSafePersistedTarget (target : WorkspacePath) : Bool :=
  !target.any isUnsafePart && persistedTargetRoots.contains (parentOf target) && isTargetName (nameOf target)

/-- `startsWith`. -/
def startsWith (text prefixText : String) : Bool := prefixText.toList.isPrefixOf text.toList

/-- `endsWith`. -/
def endsWith (text suffixText : String) : Bool := suffixText.toList.isSuffixOf text.toList

/-- The characters between a prefix and a suffix of the given lengths. -/
def sliceBetween (text : String) (start suffix : Nat) : List Char :=
  (text.toList.drop start).take (text.toList.length - suffix - start)

/-- `^[a-f0-9]{4,64}$`. -/
def isToken (token : List Char) : Bool := token.all isLowerHexDigit && decide (4 ≤ token.length) && decide (token.length ≤ 64)

/-- A staging or backup path of a target: next to it, with a hidden name that the target's name and a random token make up. -/
def temporaryPath (target : WorkspacePath) (token suffix : String) : WorkspacePath :=
  parentOf target ++ ["." ++ nameOf target ++ ".ft-" ++ token ++ suffix]

/-- Whether a path in the journal is a staging or backup path of its target. -/
def isRelatedJournalTemporaryTarget (target temporary : WorkspacePath) (suffix : String) : Bool :=
  let prefixText := "." ++ nameOf target ++ ".ft-"
  nameOf target != "" && nameOf temporary != "" && parentOf target == parentOf temporary &&
    startsWith (nameOf temporary) prefixText && endsWith (nameOf temporary) suffix &&
    isToken (sliceBetween (nameOf temporary) prefixText.toList.length suffix.toList.length)

/-! ## Entries and states -/

/-- A key is `core:` or `resource:` and something after it. -/
def isManagedSkillKey (key : String) : Bool :=
  (startsWith key "core:" && decide ("core:".toList.length < key.toList.length)) ||
    (startsWith key "resource:" && decide ("resource:".toList.length < key.toList.length))

/-- `^sha256:[a-f0-9]{64}$`. -/
def isSha256Digest (digest : String) : Bool :=
  startsWith digest "sha256:" && (digest.toList.drop 7).all isLowerHexDigit && decide ((digest.toList.drop 7).length = 64)

/-- An entry that may be persisted. -/
def isManagedSkillEntry (entry : ManagedSkillEntry) : Bool :=
  isManagedSkillKey entry.key && entry.revision != "" && isSha256Digest entry.installedDigest &&
    isSafePersistedTarget entry.target && isSafePersistedSkillName entry.requestedSlug &&
    isSafePersistedSkillName entry.effectiveName &&
    (if parentOf entry.target = legacyResourceSkillsRoot then entry.key == "resource:" ++ nameOf entry.target
      else nameOf entry.target == entry.effectiveName) &&
    (!startsWith entry.key "core:" || entry.key == "core:" ++ entry.requestedSlug)

/-- The entry read back, when it may be persisted. -/
def parseManagedSkillEntry (entry : ManagedSkillEntry) : Option ManagedSkillEntry :=
  if isManagedSkillEntry entry then some entry else none

/-- A target in lower case, as two spellings of it are compared. -/
def foldTarget (target : WorkspacePath) : List (List Char) := target.map fun part => part.toList.map Char.toLower

/-- The entries read back one after another: none may have the folded target of an entry of another key. -/
def parseEntries (owners : List (List (List Char) × String)) : List ManagedSkillEntry → Option (List ManagedSkillEntry)
  | [] => some []
  | raw :: rest => do
    let entry ← parseManagedSkillEntry raw
    if (owners.lookup (foldTarget entry.target)).any fun existingOwner => existingOwner != entry.key then none
    else
      let skills ← parseEntries ((foldTarget entry.target, entry.key) :: owners) rest
      return entry :: skills

/-- Whether two entries have one key and one target. -/
def sameSlot (a b : ManagedSkillEntry) : Bool := a.key == b.key && a.target == b.target

/-- `Map.set` under the key and the target of an entry. -/
def setEntry (unique : List ManagedSkillEntry) (entry : ManagedSkillEntry) : List ManagedSkillEntry :=
  if unique.any (sameSlot entry) then unique.map fun e => if sameSlot entry e then entry else e
  else unique ++ [entry]

/-- The order of the entries: by key, then by target. -/
def compareEntries (C : Collation) (a b : ManagedSkillEntry) : Ordering :=
  (C.localeCompare a.key b.key).then (C.localeCompare (portable a.target) (portable b.target))

/-- The entries in their order. -/
def sortEntries (C : Collation) (skills : List ManagedSkillEntry) : List ManagedSkillEntry :=
  skills.insertionSort fun a b => (compareEntries C a b).isLE

/-- One entry for each key and target, in order. -/
def normalizeManagedState (C : Collation) (state : ManagedState) : ManagedState :=
  { state with skills := sortEntries C (state.skills.foldl setEntry []) }

/-- The largest integer that a number holds exactly. -/
def maxSafeInteger : Nat := 9007199254740991

/-- The state read back, when it may be persisted. -/
def parseEmbeddedManagedState (C : Collation) (state : ManagedState) : Option ManagedState := do
  guard (state.resourceConfigVersion ≤ maxSafeInteger)
  let skills ← parseEntries [] state.skills
  return normalizeManagedState C { state with skills := skills }

/-- What the state file holds, when it exists. -/
inductive ManagedStateFile where
  | legacy (skills : List String)
  | future (schemaVersion : Nat)
  | malformed (reason : String)
  | value (state : ManagedState)
  deriving DecidableEq, Repr

/-- What reading the state file answers. -/
inductive ManagedStateReadResult where
  | missing
  | legacy (skills : List String)
  | current (state : ManagedState)
  | future (schemaVersion : Nat)
  | invalid (reason : String)
  deriving DecidableEq, Repr

/-- Reading the state file. -/
def readManagedStateResult (C : Collation) : Option ManagedStateFile → ManagedStateReadResult
  | none => .missing
  | some (.legacy skills) => .legacy skills
  | some (.future schemaVersion) => .future schemaVersion
  | some (.malformed reason) => .invalid reason
  | some (.value state) =>
    match parseEmbeddedManagedState C state with
    | some state => .current state
    | none => .invalid "managed state v2 has invalid fields"

/-- A state with an entry in the place of the one of its key and target. -/
def replaceEntry (state : ManagedState) (entry : ManagedSkillEntry) : ManagedState :=
  { state with skills := state.skills.filter (fun candidate => !sameSlot entry candidate) ++ [entry] }

/-- A state without the entry of a key and target. -/
def removeEntry (state : ManagedState) (entry : ManagedSkillEntry) : ManagedState :=
  { state with skills := state.skills.filter fun candidate => !sameSlot entry candidate }

/-- Whether two states say the same: the fence and the entries in order. -/
def stateEquivalent (C : Collation) (left right : ManagedState) : Bool :=
  left.resourceConfigVersion == right.resourceConfigVersion && sortEntries C left.skills == sortEntries C right.skills

/-! ## The journal -/

/-- The operations that are journalled. -/
inductive JournalOperation where
  | install
  | remove
  deriving DecidableEq, Repr

/-- How far the operation has come. -/
inductive JournalPhase where
  | prepared
  | target_backed_up
  | target_installed
  | state_committed
  deriving DecidableEq, Repr

/-- The journal of the transaction under way. -/
structure ManagedSkillsJournal where
  operationId : String
  operation : JournalOperation
  phase : JournalPhase
  target : WorkspacePath
  staging : Option WorkspacePath
  backup : Option WorkspacePath
  expectedInstalledDigest : Option String
  beforeState : ManagedState
  afterState : ManagedState
  deriving DecidableEq, Repr

/-- Whether two states agree outside a target. -/
def statesMatchOutsideTarget (C : Collation) (beforeState afterState : ManagedState) (target : WorkspacePath) : Bool :=
  sortEntries C (beforeState.skills.filter fun entry => entry.target != target) ==
    sortEntries C (afterState.skills.filter fun entry => entry.target != target)

/-- The entries of a state at a target. -/
def entriesAt (state : ManagedState) (target : WorkspacePath) : List ManagedSkillEntry :=
  state.skills.filter fun entry => entry.target == target

/-- What is wrong with the transition of a journal, if anything. -/
def validateJournalTransition (C : Collation) (journal : ManagedSkillsJournal) : Option String :=
  let beforeTargetEntries := entriesAt journal.beforeState journal.target
  let afterTargetEntries := entriesAt journal.afterState journal.target
  if !isSafePersistedTarget journal.target then
    some "managed skills journal target is outside an allowed Skill root"
  else if journal.beforeState.resourceConfigVersion != journal.afterState.resourceConfigVersion then
    some "managed skills journal may not change the Team Resource version fence"
  else if journal.staging.any fun staging => !isRelatedJournalTemporaryTarget journal.target staging ".staging" then
    some "managed skills journal staging path does not belong to target"
  else if journal.backup.any fun backup => !isRelatedJournalTemporaryTarget journal.target backup ".backup" then
    some "managed skills journal backup path does not belong to target"
  else if !statesMatchOutsideTarget C journal.beforeState journal.afterState journal.target then
    some "managed skills journal changes entries outside its target"
  else
    match journal.operation with
    | .install =>
      if journal.staging.isNone || journal.expectedInstalledDigest.isNone then
        some "install journal requires staging and expectedInstalledDigest"
      else if afterTargetEntries.length != 1 ||
          (afterTargetEntries.head?.map (·.installedDigest)) != journal.expectedInstalledDigest then
        some "install journal afterState does not own target at expected digest"
      else if decide (1 < beforeTargetEntries.length) ||
          beforeTargetEntries.head?.any fun entry => some entry.key != afterTargetEntries.head?.map (·.key) then
        some "install journal target ownership transition is invalid"
      else none
    | .remove =>
      if journal.staging.isSome || journal.backup.isNone || journal.expectedInstalledDigest.isSome then
        some "remove journal requires only a related backup path"
      else if beforeTargetEntries.length != 1 || afterTargetEntries.length != 0 then
        some "remove journal beforeState/afterState target transition is invalid"
      else none

/-- What the journal file holds, when it exists. -/
inductive JournalFile where
  | future (schemaVersion : Nat)
  | malformed (reason : String)
  | value (journal : ManagedSkillsJournal)
  deriving DecidableEq, Repr

/-- What reading the journal answers. -/
inductive JournalReadResult where
  | missing
  | current (journal : ManagedSkillsJournal)
  | future (schemaVersion : Nat)
  | invalid (reason : String)
  deriving DecidableEq, Repr

/-- Whether a path is written as the empty text. -/
def isEmptyPath (path : WorkspacePath) : Bool := path == [] || path == [""]

/-- Reading the journal of an operation with both states read back. -/
def readJournalValue (C : Collation) (journal : ManagedSkillsJournal) : JournalReadResult :=
  if journal.operationId == "" || isEmptyPath journal.target || journal.staging.any isEmptyPath || journal.backup.any isEmptyPath then
    .invalid "managed skills journal has invalid operation fields"
  else if journal.expectedInstalledDigest.any fun digest => !isSha256Digest digest then
    .invalid "managed skills journal has invalid expectedInstalledDigest"
  else
    match parseEmbeddedManagedState C journal.beforeState, parseEmbeddedManagedState C journal.afterState with
    | some beforeState, some afterState =>
      let journal := { journal with beforeState := beforeState, afterState := afterState }
      match validateJournalTransition C journal with
      | some transitionError => .invalid transitionError
      | none => .current journal
    | _, _ => .invalid "managed skills journal has invalid beforeState/afterState"

/-- Reading the journal. -/
def readManagedSkillsJournal (C : Collation) : Option JournalFile → JournalReadResult
  | none => .missing
  | some (.future schemaVersion) => .future schemaVersion
  | some (.malformed reason) => .invalid reason
  | some (.value journal) => readJournalValue C journal

end FirstTree
