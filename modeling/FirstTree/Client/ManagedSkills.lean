import FirstTree.Client.ManagedState
import FirstTree.Lib.DurablePrograms
import Mathlib.Logic.Function.Basic

/-!
# The transactions of the managed Skills

Installing a staged Skill over its target, removing a managed Skill, and the recovery of the transaction a journal records. Each is a
program over the files of the workspace: the journal, the state, and what stands at the paths of the Skill directories. The programs
take the operations one at a time, as the workspace lock has them.
-/

namespace FirstTree

open Durable

/-- What stands at a path: a directory with its tree, a symbolic link, or a file. -/
inductive Node (τ : Type) where
  | directory (tree : τ)
  | symlink
  | file
  deriving DecidableEq, Repr

/-- The files of a workspace that the transactions read and write. -/
structure Workspace (τ : Type) where
  journal : Option JournalFile
  state : Option ManagedStateFile
  nodes : WorkspacePath → Option (Node τ)

/-- The digest of a directory tree, or why it is refused. No two trees have one digest. -/
structure TreeDigest (τ : Type) where
  digestDirectory : τ → Except String String
  injective : ∀ a b digest, digestDirectory a = .ok digest → digestDirectory b = .ok digest → a = b

/-- What a reconcile is run with: the roots a target may stand under, the collation, the digest, and the key of a target's
quarantine. -/
structure ManagedSkillsOptions (τ : Type) where
  allowedRoots : List WorkspacePath
  collation : Collation
  digest : TreeDigest τ
  quarantineKey : WorkspacePath → String

/-- The errors of a reconcile: a fatal one ends it, another one ends the operation. -/
inductive ManagedSkillsError where
  | fatal (message : String)
  | error (message : String)
  deriving DecidableEq, Repr

/-- The message of an error. -/
def ManagedSkillsError.message : ManagedSkillsError → String
  | .fatal message => message
  | .error message => message

variable {τ : Type}

/-- The programs of a reconcile. -/
abbrev WorkspaceProgram (τ α : Type) := Program (Workspace τ) ManagedSkillsError α

/-! ## Steps on the files -/

namespace Workspace

/-- The journal is replaced. -/
def setJournal (journal : Option JournalFile) (w : Workspace τ) : Workspace τ := { w with journal := journal }

/-- The state is replaced. -/
def setState (state : ManagedStateFile) (w : Workspace τ) : Workspace τ := { w with state := some state }

/-- What stands at a path is removed, with everything below it. -/
def rm (path : WorkspacePath) (w : Workspace τ) : Workspace τ := { w with nodes := Function.update w.nodes path none }

/-- What stands at a path is moved to another. -/
def rename (source target : WorkspacePath) (w : Workspace τ) : Workspace τ :=
  { w with nodes := Function.update (Function.update w.nodes source none) target (w.nodes source) }

end Workspace

/-! ## Checks -/

/-- A target is a plain path directly under an allowed root. -/
def assertManagedTarget (o : ManagedSkillsOptions τ) (target : WorkspacePath) : Except ManagedSkillsError Unit :=
  if target.any isUnsafePart then .error (.fatal ("unsafe managed Skill target: " ++ portable target))
  else if !o.allowedRoots.contains (parentOf target) || decide (target.length < 3) then
    .error (.fatal ("managed Skill target is outside allowed roots: " ++ portable target))
  else .ok ()

/-- `includes`. -/
def includesText (text part : String) : Bool := decide (part.toList <:+: text.toList)

/-- A staging or backup path is a hidden one directly under an allowed root. -/
def assertTemporaryTarget (o : ManagedSkillsOptions τ) (target : WorkspacePath) (suffix : String) : Except ManagedSkillsError Unit :=
  if !o.allowedRoots.contains (parentOf target) || !startsWith (nameOf target) "." || !includesText (nameOf target) ".ft-" ||
      !endsWith (nameOf target) suffix then
    .error (.fatal ("unsafe managed Skill transaction path: " ++ portable target))
  else .ok ()

/-- The last path checked of a temporary or a quarantine path is itself a directory, when it exists. -/
def assertDirectoryIfPresent (kind : String) (path : WorkspacePath) : Option (Node τ) → Except ManagedSkillsError Unit
  | none => .ok ()
  | some (.directory _) => .ok ()
  | some .symlink => .error (.fatal (kind ++ " path has a symlinked managed ancestor: " ++ portable path))
  | some .file => .error (.fatal (kind ++ " path has a non-directory managed ancestor: " ++ portable path))

/-- A temporary path resolved in the workspace. -/
def resolveTemporary (o : ManagedSkillsOptions τ) (w : Workspace τ) (path : WorkspacePath) : Except ManagedSkillsError Unit := do
  assertTemporaryTarget o path (if endsWith (nameOf path) ".staging" then ".staging" else ".backup")
  assertDirectoryIfPresent "temporary" path (w.nodes path)

/-- The digest of what stands at a target: none when nothing or no directory does. -/
def digestManagedTarget (o : ManagedSkillsOptions τ) (w : Workspace τ) (target : WorkspacePath) :
    Except ManagedSkillsError (Option String) :=
  match w.nodes target with
  | some (.directory tree) =>
    match o.digest.digestDirectory tree with
    | .ok digest => .ok (some digest)
    | .error reason => .error (.error ("Managed Skill target " ++ portable target ++ " cannot be digested: " ++ reason))
  | _ => .ok none

/-! ## Writing the journal and the state -/

/-- The journal is written. -/
def writeManagedSkillsJournal (journal : ManagedSkillsJournal) : WorkspaceProgram τ Unit :=
  Program.write (Workspace.setJournal (some (.value journal)))

/-- The journal is removed. -/
def clearManagedSkillsJournal : WorkspaceProgram τ Unit := Program.write (Workspace.setJournal none)

/-- The journal is written at another phase. -/
def writeJournalPhase (journal : ManagedSkillsJournal) (phase : JournalPhase) : WorkspaceProgram τ ManagedSkillsJournal := do
  let next := { journal with phase := phase }
  writeManagedSkillsJournal next
  return next

/-- The state is written as it will be read back. -/
def writeManagedState (o : ManagedSkillsOptions τ) (state : ManagedState) : WorkspaceProgram τ ManagedState :=
  match parseEmbeddedManagedState o.collation state with
  | none => throw (.error "refusing to persist invalid managed state")
  | some persisted => do
    Program.write (Workspace.setState (.value persisted))
    return persisted

/-- The state is written, unless the file holds an unsafe or a newer one. -/
def persistStateMonotonic (o : ManagedSkillsOptions τ) (candidate : ManagedState) : WorkspaceProgram τ ManagedState := do
  match ← Program.read fun w => readManagedStateResult o.collation w.state with
  | .future _ | .invalid _ | .legacy _ => throw (.fatal "refusing to write managed state over an unsafe schema")
  | .missing => writeManagedState o candidate
  | .current state =>
    if candidate.resourceConfigVersion < state.resourceConfigVersion then
      throw (.fatal ("refusing to lower Team Resource fence from v" ++ toString state.resourceConfigVersion ++
        " to v" ++ toString candidate.resourceConfigVersion))
    else writeManagedState o candidate

/-! ## Recovery -/

/-- The journal to recover and the state it is recovered against, when there is one. -/
def loadPendingJournal (o : ManagedSkillsOptions τ) : WorkspaceProgram τ (Option (ManagedSkillsJournal × ManagedState)) := do
  match ← Program.read fun w => readManagedSkillsJournal o.collation w.journal with
  | .missing => return none
  | .future schemaVersion =>
    throw (.fatal ("managed skills journal schema v" ++ toString schemaVersion ++ " is newer than this client"))
  | .invalid reason => throw (.fatal ("managed skills journal is invalid: " ++ reason))
  | .current journal =>
    Program.check (assertManagedTarget o journal.target)
    Program.check (journal.staging.forM fun staging => assertTemporaryTarget o staging ".staging")
    Program.check (journal.backup.forM fun backup => assertTemporaryTarget o backup ".backup")
    match ← Program.read fun w => readManagedStateResult o.collation w.state with
    | .future _ | .invalid _ | .legacy _ =>
      throw (.fatal "cannot recover managed skills journal against an unsafe managed state")
    | .missing => return some (journal, journal.beforeState)
    | .current state =>
      if journal.afterState.resourceConfigVersion < state.resourceConfigVersion then
        throw (.fatal "managed skills journal would cross a newer Team Resource version fence")
      else return some (journal, state)

/-- What stands at an optional path is removed. -/
def rmOptional : Option WorkspacePath → WorkspaceProgram τ Unit
  | some path => Program.write (Workspace.rm path)
  | none => pure ()

/-- The recovery of an interrupted install, by the digest and the existence of its target and of its backup. -/
def recoverInterruptedInstall (o : ManagedSkillsOptions τ) (journal : ManagedSkillsJournal) : WorkspaceProgram τ Unit := do
  let targetExists ← Program.read fun w => (w.nodes journal.target).isSome
  let backupExists ← Program.read fun w => journal.backup.any fun backup => (w.nodes backup).isSome
  let digested ← Program.read fun w => digestManagedTarget o w journal.target
  let actualDigest ← Program.check digested
  if actualDigest = journal.expectedInstalledDigest then
    let _ ← persistStateMonotonic o journal.afterState
    rmOptional journal.staging
    rmOptional journal.backup
    clearManagedSkillsJournal
  else if journal.phase = .prepared ∧ targetExists ∧ !backupExists then
    let _ ← persistStateMonotonic o journal.beforeState
    rmOptional journal.staging
    clearManagedSkillsJournal
  else
    match journal.backup, backupExists && !targetExists with
    | some backup, true =>
      Program.write (Workspace.rename backup journal.target)
      let _ ← persistStateMonotonic o journal.beforeState
      rmOptional journal.staging
      clearManagedSkillsJournal
    | _, _ =>
      if !backupExists && !targetExists then
        let _ ← persistStateMonotonic o journal.beforeState
        rmOptional journal.staging
        clearManagedSkillsJournal
      else throw (.fatal ("cannot safely recover interrupted install for " ++ portable journal.target))

/-- The recovery of an interrupted removal, by the existence of its target and of its backup and by the state. -/
def recoverInterruptedRemoval (o : ManagedSkillsOptions τ) (journal : ManagedSkillsJournal) (currentState : ManagedState) :
    WorkspaceProgram τ Unit := do
  let targetExists ← Program.read fun w => (w.nodes journal.target).isSome
  let backupExists ← Program.read fun w => journal.backup.any fun backup => (w.nodes backup).isSome
  let currentMatchesAfter := stateEquivalent o.collation currentState journal.afterState
  if journal.phase = .prepared ∧ targetExists ∧ !backupExists then
    let _ ← persistStateMonotonic o journal.beforeState
    clearManagedSkillsJournal
  else if !targetExists && currentMatchesAfter then
    rmOptional journal.backup
    clearManagedSkillsJournal
  else
    match journal.backup, backupExists && !targetExists with
    | some backup, true =>
      Program.write (Workspace.rename backup journal.target)
      let _ ← persistStateMonotonic o journal.beforeState
      clearManagedSkillsJournal
    | _, _ =>
      if !targetExists && !backupExists && currentMatchesAfter then clearManagedSkillsJournal
      else throw (.fatal ("cannot safely recover interrupted removal for " ++ portable journal.target))

/-- The recovery of the transaction a journal records. -/
def recoverPendingJournal (o : ManagedSkillsOptions τ) : WorkspaceProgram τ Unit := do
  match ← loadPendingJournal o with
  | none => return
  | some (journal, currentState) =>
    let staging ← Program.read fun w => journal.staging.forM (resolveTemporary o w)
    Program.check staging
    let backup ← Program.read fun w => journal.backup.forM (resolveTemporary o w)
    Program.check backup
    match journal.operation with
    | .install => recoverInterruptedInstall o journal
    | .remove => recoverInterruptedRemoval o journal currentState

/-- The recovery after an operation has failed. -/
def recoverFailedTransaction (o : ManagedSkillsOptions τ) (operation : String) : WorkspaceProgram τ Unit :=
  tryCatch (do
    recoverPendingJournal o
    match ← Program.read fun w => readManagedStateResult o.collation w.state with
    | .current _ => return
    | _ => throw (.error "managed state unavailable after transaction recovery"))
  fun error => throw (.fatal ("managed skills " ++ operation ++
    " recovery failed; reconciliation aborted with journal preserved: " ++ error.message))

/-! ## Installing and removing -/

/-- A Skill staged next to its target, and the entry it will have. -/
structure StagedManagedSkill where
  staging : WorkspacePath
  entry : ManagedSkillEntry
  deriving DecidableEq, Repr

/-- A rename in the workspace, an error when its source is missing or something stands at its target. -/
def renameNode (source target : WorkspacePath) : WorkspaceProgram τ Unit := do
  let sourceExists ← Program.read fun w => (w.nodes source).isSome
  let targetExists ← Program.read fun w => (w.nodes target).isSome
  if !sourceExists then throw (.error ("ENOENT: no such file or directory, rename " ++ portable source))
  else if targetExists then throw (.error ("ENOTEMPTY: directory not empty, rename " ++ portable target))
  else Program.write (Workspace.rename source target)

/-- The steps of an install after its journal has been written. -/
def installSteps (o : ManagedSkillsOptions τ) (journal : ManagedSkillsJournal) (staging : WorkspacePath)
    (backup : Option WorkspacePath) : WorkspaceProgram τ ManagedState := do
  let journal ← match backup with
    | some backup => do
      renameNode journal.target backup
      writeJournalPhase journal .target_backed_up
    | none => pure journal
  renameNode staging journal.target
  let journal ← writeJournalPhase journal .target_installed
  let persisted ← persistStateMonotonic o journal.afterState
  writeManagedSkillsJournal { journal with afterState := persisted, phase := .state_committed }
  rmOptional backup
  clearManagedSkillsJournal
  return persisted

/-- A staged Skill takes the place of its target, and its entry the place of the one in the state. -/
def installStagedSkill (o : ManagedSkillsOptions τ) (beforeState : ManagedState) (staged : StagedManagedSkill)
    (operationId backupToken : String) : WorkspaceProgram τ ManagedState := do
  let afterState := replaceEntry beforeState staged.entry
  Program.check (assertManagedTarget o staged.entry.target)
  let resolved ← Program.read fun w => resolveTemporary o w staged.staging
  Program.check resolved
  let targetExists ← Program.read fun w => (w.nodes staged.entry.target).isSome
  let backup := if targetExists then some (temporaryPath staged.entry.target backupToken ".backup") else none
  let journal : ManagedSkillsJournal :=
    { operationId := operationId
      operation := .install
      phase := .prepared
      target := staged.entry.target
      staging := some staged.staging
      backup := backup
      expectedInstalledDigest := some staged.entry.installedDigest
      beforeState := beforeState
      afterState := afterState }
  writeManagedSkillsJournal journal
  tryCatch (installSteps o journal staged.staging backup) fun error => do
    recoverFailedTransaction o "install"
    throw error

/-- The quarantine slot of a target, outside of the Skill roots. -/
def managedTargetQuarantinePath (o : ManagedSkillsOptions τ) (target : WorkspacePath) : WorkspacePath :=
  [".first-tree-workspace", ".managed-skill-quarantine-" ++ o.quarantineKey target]

/-- The quarantine slot of a target is emptied. -/
def removeManagedTargetQuarantine (o : ManagedSkillsOptions τ) (target : WorkspacePath) : WorkspaceProgram τ Unit := do
  let path := managedTargetQuarantinePath o target
  let resolved ← Program.read fun w => assertDirectoryIfPresent "quarantine" path (w.nodes path)
  Program.check resolved
  Program.write (Workspace.rm path)

/-- The steps of a removal after its journal has been written. -/
def removeSteps (o : ManagedSkillsOptions τ) (journal : ManagedSkillsJournal) (backup : WorkspacePath) :
    WorkspaceProgram τ ManagedState := do
  renameNode journal.target backup
  let journal ← writeJournalPhase journal .target_backed_up
  let persisted ← persistStateMonotonic o journal.afterState
  writeManagedSkillsJournal { journal with afterState := persisted, phase := .state_committed }
  Program.write (Workspace.rm backup)
  clearManagedSkillsJournal
  return persisted

/-- A managed Skill and its entry are removed. -/
def removeManagedEntry (o : ManagedSkillsOptions τ) (beforeState : ManagedState) (entry : ManagedSkillEntry)
    (operationId backupToken : String) : WorkspaceProgram τ ManagedState := do
  Program.check (assertManagedTarget o entry.target)
  let afterState := removeEntry beforeState entry
  removeManagedTargetQuarantine o entry.target
  if !(← Program.read fun w => (w.nodes entry.target).isSome) then
    persistStateMonotonic o afterState
  else
    let backup := temporaryPath entry.target backupToken ".backup"
    let journal : ManagedSkillsJournal :=
      { operationId := operationId
        operation := .remove
        phase := .prepared
        target := entry.target
        staging := none
        backup := some backup
        expectedInstalledDigest := none
        beforeState := beforeState
        afterState := afterState }
    writeManagedSkillsJournal journal
    tryCatch (removeSteps o journal backup) fun error => do
      recoverFailedTransaction o "removal"
      throw error

/-! ## The transactions of a reconcile -/

/-- A transaction with the random names it draws. -/
inductive SkillTransaction where
  | install (staged : StagedManagedSkill) (operationId backupToken : String)
  | remove (entry : ManagedSkillEntry) (operationId backupToken : String)
  deriving DecidableEq, Repr

namespace SkillTransaction

/-- The entry it is about. -/
def entry : SkillTransaction → ManagedSkillEntry
  | .install staged _ _ => staged.entry
  | .remove entry _ _ => entry

/-- The identifier of the operation. -/
def operationId : SkillTransaction → String
  | .install _ operationId _ => operationId
  | .remove _ operationId _ => operationId

/-- The random part of its backup's name. -/
def backupToken : SkillTransaction → String
  | .install _ _ backupToken => backupToken
  | .remove _ _ backupToken => backupToken

/-- The path of its backup. -/
def backup (tx : SkillTransaction) : WorkspacePath := temporaryPath tx.entry.target tx.backupToken ".backup"

/-- The path of what it installs. -/
def staging : SkillTransaction → Option WorkspacePath
  | .install staged _ _ => some staged.staging
  | .remove _ _ _ => none

/-- The state after it. -/
def apply (state : ManagedState) : SkillTransaction → ManagedState
  | .install staged _ _ => replaceEntry state staged.entry
  | .remove entry _ _ => removeEntry state entry

end SkillTransaction

/-- A transaction on a state. -/
def runOn (o : ManagedSkillsOptions τ) (state : ManagedState) : SkillTransaction → WorkspaceProgram τ Unit
  | .install staged operationId backupToken => do
    let _ ← installStagedSkill o state staged operationId backupToken
  | .remove entry operationId backupToken => do
    let _ ← removeManagedEntry o state entry operationId backupToken

/-- A transaction on the state the workspace holds. -/
def runTransaction (o : ManagedSkillsOptions τ) (tx : SkillTransaction) : WorkspaceProgram τ Unit := do
  match ← Program.read fun w => readManagedStateResult o.collation w.state with
  | .current state => runOn o state tx
  | _ => throw (.error "managed state unavailable")

/-- A Skill may be installed where a reconcile installs one: no other key has its target, what was staged has the digest of its entry,
and the digest of what it replaces can be taken, as the reconcile has just done. -/
def admitsInstall (o : ManagedSkillsOptions τ) (w : Workspace τ) (state : ManagedState) (staged : StagedManagedSkill) : Bool :=
  isManagedSkillEntry staged.entry &&
    (state.skills.all fun e => foldTarget e.target != foldTarget staged.entry.target || e.key == staged.entry.key) &&
    isRelatedJournalTemporaryTarget staged.entry.target staged.staging ".staging" &&
    (match digestManagedTarget o w staged.staging with
      | .ok digest => digest == some staged.entry.installedDigest
      | .error _ => false) &&
    (digestManagedTarget o w staged.entry.target).isOk

/-- Where a reconcile may begin a transaction: no other is pending, its target is under an allowed root, and the names it has
drawn are new. What it removes is an entry of the state. -/
def admitsTransaction (o : ManagedSkillsOptions τ) (tx : SkillTransaction) (w : Workspace τ) : Bool :=
  match readManagedStateResult o.collation w.state with
  | .current state =>
    w.journal.isNone && tx.operationId != "" && isToken tx.backupToken.toList && (w.nodes tx.backup).isNone &&
      (assertManagedTarget o tx.entry.target).isOk &&
      match tx with
      | .install staged _ _ => admitsInstall o w state staged
      | .remove entry _ _ => state.skills.contains entry
  | _ => false

/-- A workspace whose reconciles run the transactions, and begin with the recovery of the last one. -/
def managedSkillsService (o : ManagedSkillsOptions τ) : Service SkillTransaction (Workspace τ) ManagedSkillsError :=
  { admits := admitsTransaction o, program := runTransaction o, recovery := recoverPendingJournal o }

end FirstTree
