import FirstTree.Lib.DurablePrograms
import FirstTree.Lib.JournaledMoves

/-!
# The switch between local clients

`client-switch.ts`, with the part of `login.ts` around it: a login as another user parks the files of the active client and
restores those of the user's own, under a lock and a journal from which an interrupted switch goes on. Each is a program over the
files of the home directory, one atomic step after another; what the supervisor and the processes answer comes with the login.
-/

namespace FirstTree

open Durable

/-- The files and directories that a switch moves. -/
inductive SwitchItem where
  | clientYaml | agents | contextYaml | contextV1Backup | sessions | workspaces | byo
  deriving DecidableEq

/-- Where one of them stands: under the active root, or under the parked root of a client. -/
inductive SwitchPath where
  | active (item : SwitchItem)
  | parked (clientId : String) (item : SwitchItem)
  deriving DecidableEq

/-- A `client.yaml`, by the fields that are read, and its other fields. -/
structure ClientYaml (τ : Type) where
  clientId : Option String
  serverUrl : Option String
  rest : Option τ

/-- What stands at such a path. -/
inductive SwitchFile (τ : Type) where
  | clientYaml (yaml : ClientYaml τ)
  | other (content : τ)

/-- What stands at the paths. -/
abbrev SwitchFiles (τ : Type) := SwitchPath → Option (SwitchFile τ)

/-- `SwitchIndexEntry["storage"]`. -/
inductive ClientStorage where
  | activeRoot | parked
  deriving DecidableEq

/-- `LocalClientOwner`. -/
structure LocalClientOwner where
  clientId : String
  userId : String
  serverUrl : String

/-- `SwitchIndexEntry`. -/
structure SwitchIndexEntry extends LocalClientOwner where
  storage : ClientStorage

/-- `SwitchIndex`. -/
structure SwitchIndex where
  activeClientId : Option String
  accountDefaults : String → Option String
  clients : String → Option SwitchIndexEntry

/-- `SwitchMoveState`. -/
inductive SwitchMoveState where
  | pending | done | absent | create
  deriving DecidableEq

/-- `SwitchMoveGroup`. -/
inductive SwitchMoveGroup where
  | park | restore
  deriving DecidableEq

/-- `SwitchJournalMove`, whose kind is its group with its item. -/
structure SwitchJournalMove where
  group : SwitchMoveGroup
  item : SwitchItem
  source : SwitchPath
  target : SwitchPath
  required : Bool
  state : SwitchMoveState
  deriving DecidableEq

/-- `SwitchJournal["phase"]`. -/
inductive SwitchPhase where
  | locked | serviceStopped | drainClean | parkedOldClient | restoredTargetClient | credentialsWritten | complete
  deriving DecidableEq

/-- `SwitchJournal["to"]`. -/
structure SwitchTarget where
  clientId : Option String
  userId : String
  serverUrl : String

/-- `SwitchJournal`. -/
structure SwitchJournal where
  phase : SwitchPhase
  «from» : LocalClientOwner
  «to» : SwitchTarget
  moves : Option (List SwitchJournalMove)

/-- `StoredCredentials`, by the owner that their access token names. -/
structure SwitchCredentials where
  ownerSub : Option String
  serverUrl : String

/-- The files of the home directory that logins read and write, and the client ids that have been generated: none is generated
twice. -/
structure HomeStore (τ : Type) where
  files : SwitchFiles τ
  lock : Bool
  journal : Option SwitchJournal
  credentials : Option SwitchCredentials
  index : SwitchIndex
  generated : List String

/-- A command that fails with a code, or another error. -/
inductive SwitchError where
  | fail (code message : String)
  | error (message : String)
  deriving DecidableEq

/-- What the guards of a switch answer: other journals, the supervisor, the runtime markers and the processes. -/
structure SwitchGuards where
  accountState : Except SwitchError Unit
  service : Except SwitchError Unit
  runtimes : Except SwitchError Unit
  drain : Except SwitchError Unit

/-- A login: the account that the connect code is for, whether the user confirms a switch, the client id of its environment
(`FIRST_TREE_CLIENT_ID`), and the one that would be generated. -/
structure LoginRequest where
  serverUrl : String
  userId : String
  confirmed : Except SwitchError Unit
  envClientId : Option String
  newClientId : String
  guards : SwitchGuards

/-- The names in the messages: the directories and the command. -/
structure SwitchDirs where
  home : String
  configDir : String
  dataDir : String
  binName : String

/-- The programs of a login. -/
abbrev SwitchProgram (τ α : Type) := Program (HomeStore τ) SwitchError α

namespace ClientSwitch

variable {τ : Type} (d : SwitchDirs)

/-! ## Texts -/

/-- The name of an item in its kind. -/
def kindName : SwitchItem → String
  | .clientYaml => "client-yaml"
  | .agents => "agents"
  | .contextYaml => "context-yaml"
  | .contextV1Backup => "context-v1-backup"
  | .sessions => "sessions"
  | .workspaces => "workspaces"
  | .byo => "byo"

/-- `SwitchMoveKind`. -/
def kind (entry : SwitchJournalMove) : String :=
  (match entry.group with
    | .park => "park-"
    | .restore => "restore-") ++ kindName entry.item

/-- Where an item stands under a root: a directory and a name. -/
def itemPath : SwitchItem → String × String
  | .clientYaml => ("config", "client.yaml")
  | .agents => ("config", "agents")
  | .contextYaml => ("config", "context.yaml")
  | .contextV1Backup => ("config", "context.yaml.v1.bak")
  | .sessions => ("data", "sessions")
  | .workspaces => ("data", "workspaces")
  | .byo => ("data", "byo")

/-- The text of a path. -/
def pathText : SwitchPath → String
  | .active item => (if (itemPath item).1 = "config" then d.configDir else d.dataDir) ++ "/" ++ (itemPath item).2
  | .parked clientId item => d.home ++ "/parked-clients/" ++ clientId ++ "/" ++ (itemPath item).1 ++ "/" ++ (itemPath item).2

/-- `clientSwitchJournalPath`. -/
def clientSwitchJournalPath : String := d.home ++ "/state/client-switch-journal.json"

/-! ## Reads -/

/-- A client id: `/^client_[a-f0-9]\{8\}$/`. -/
def isClientId (id : String) : Bool :=
  let chars := id.toList
  decide (chars.take 7 = "client_".toList) && decide ((chars.drop 7).length = 8) &&
    (chars.drop 7).all fun c => c.isDigit || decide ('a' ≤ c ∧ c ≤ 'f')

/-- The fields of a `client.yaml`; a file that holds none has none. -/
def yamlOf : Option (SwitchFile τ) → ClientYaml τ
  | some (.clientYaml yaml) => yaml
  | _ => ⟨none, none, none⟩

/-- `readRootClientId`. -/
def rootClientId (files : SwitchFiles τ) : Option String := (yamlOf (files (.active .clientYaml))).clientId.filter isClientId

/-- `readActiveClientOwner`. -/
def readActiveClientOwner (s : HomeStore τ) : Option LocalClientOwner :=
  (rootClientId s.files).bind fun clientId =>
    ((s.index.clients clientId).filter fun entry => decide (entry.storage = .activeRoot)).map fun entry =>
      ⟨clientId, entry.userId, entry.serverUrl⟩

/-- `hasIncompleteClientSwitch`. -/
def hasIncompleteClientSwitch (s : HomeStore τ) : Bool := s.journal.any fun journal => decide (journal.phase ≠ .complete)

/-- `accountKey`. -/
def accountKey (serverUrl userId : String) : String := serverUrl ++ "\n" ++ userId

/-! ## Writes -/

/-- `writeJournal`. -/
def writeJournal (journal : SwitchJournal) : SwitchProgram τ Unit := Program.write fun s => { s with journal := some journal }

/-- `updateJournal`. -/
def updateJournal (journal : SwitchJournal) (phase : SwitchPhase) : SwitchProgram τ SwitchJournal := do
  writeJournal { journal with phase := phase }
  return { journal with phase := phase }

/-- `clearSwitchLock`. -/
def clearSwitchLock : SwitchProgram τ Unit := do
  Program.write fun s => { s with journal := none }
  Program.write fun s => { s with lock := false }

/-- `acquireSwitchLock`. -/
def acquireSwitchLock : SwitchProgram τ Unit := do
  let held ← Program.read fun s => s.lock || s.journal.isSome
  Program.check (if held then
      .error (.fail "CLIENT_SWITCH_MANUAL_REPAIR_REQUIRED"
        ("A previous client switch did not complete cleanly. Start-up is blocked until the switch journal is repaired or removed " ++
          "after inspection."))
    else .ok ())
  Program.write fun s => { s with lock := true }

/-- The `client.yaml` of the active root is empty, as `writeFileSync` leaves it before it writes. -/
def isTruncated (s : HomeStore τ) : Bool :=
  match s.files (.active .clientYaml) with
  | some (.clientYaml ⟨none, none, none⟩) => true
  | _ => false

/-- The `client.yaml` of the active root is written in place: it is truncated first. -/
def writeClientYaml (yaml : ClientYaml τ) : SwitchProgram τ Unit := do
  Program.write fun s => { s with files := Function.update s.files (.active .clientYaml) (some (.clientYaml ⟨none, none, none⟩)) }
  Program.write fun s => { s with files := Function.update s.files (.active .clientYaml) (some (.clientYaml yaml)) }

/-- `setConfigValue` of a field of `client.yaml`. -/
def setConfigValue (set : ClientYaml τ → ClientYaml τ) : SwitchProgram τ Unit := do
  let yaml ← Program.read fun s => yamlOf (s.files (.active .clientYaml))
  writeClientYaml (set yaml)

/-- `initConfig` for the client, with its id: that of the environment, or that of the file; one that is nowhere is generated, once the
fields are valid. -/
def initConfig (envClientId : Option String) (newClientId : String) : SwitchProgram τ String := do
  let yaml ← Program.read fun s => yamlOf (s.files (.active .clientYaml))
  let clientId := (envClientId.filter fun id => decide (id ≠ "")) <|> yaml.clientId
  Program.check (if yaml.serverUrl.isSome ∧ (clientId.all isClientId) = true then .ok ()
    else .error (.error "Configuration validation failed"))
  match clientId with
  | some clientId => return clientId
  | none => do
    writeClientYaml { yaml with clientId := some newClientId }
    return newClientId

/-- `ensureActiveRootClientIdPersisted`. -/
def ensureActiveRootClientIdPersisted (clientId : String) : SwitchProgram τ Unit := do
  let current ← Program.read fun s => rootClientId s.files
  if isClientId clientId ∧ current = none then setConfigValue fun yaml => { yaml with clientId := some clientId } else pure ()

/-- An entry of the index set. -/
def setClient (index : SwitchIndex) (owner : LocalClientOwner) (storage : ClientStorage) : SwitchIndex :=
  { index with
    clients := Function.update index.clients owner.clientId (some ⟨owner, storage⟩)
    accountDefaults := Function.update index.accountDefaults (accountKey owner.serverUrl owner.userId) (some owner.clientId) }

/-- The other clients of an index are parked. -/
def parkOthers (index : SwitchIndex) (clientId : String) : SwitchIndex :=
  { index with
    clients := fun id => (index.clients id).map fun entry =>
      if entry.clientId ≠ clientId ∧ entry.storage = .activeRoot then { entry with storage := .parked } else entry }

/-- `recordActiveClientOwner`. -/
def recordActiveClientOwner (owner : LocalClientOwner) : SwitchProgram τ Unit :=
  Program.write fun s =>
    { s with index :=
        { setClient (parkOthers s.index owner.clientId) owner .activeRoot with activeClientId := some owner.clientId } }

/-- `updateSwitchIndex`. -/
def updateSwitchIndex («from» «to» : LocalClientOwner) : SwitchProgram τ Unit :=
  Program.write fun s =>
    { s with index := { setClient (setClient s.index «from» .parked) «to» .activeRoot with activeClientId := some «to».clientId } }

/-! ## The moves -/

/-- `move`. -/
def move (group : SwitchMoveGroup) (source target : SwitchItem → SwitchPath) (item : SwitchItem) : SwitchJournalMove :=
  ⟨group, item, source item, target item, decide (item = .clientYaml), .pending⟩

/-- The items in the order they are moved. -/
def switchItems : List SwitchItem := [.clientYaml, .agents, .contextYaml, .contextV1Backup, .sessions, .workspaces, .byo]

/-- `buildSwitchMoves`. -/
def buildSwitchMoves (fromClientId : String) (toClientId : Option String) : List SwitchJournalMove :=
  switchItems.map (move .park .active (.parked fromClientId)) ++
    match toClientId with
    | none => [⟨.restore, .clientYaml, .parked "__new-client__" .clientYaml, .active .clientYaml, true, .create⟩]
    | some toClientId => switchItems.map (move .restore (.parked toClientId) .active)

/-- `throwUnclassifiableMove`. -/
def unclassifiableMove (entry : SwitchJournalMove) (detail : String) : SwitchError :=
  .fail "CLIENT_SWITCH_MANUAL_REPAIR_REQUIRED"
    ("Client switch journal cannot safely recover " ++ kind entry ++ ": " ++ detail ++ ". Inspect " ++
      clientSwitchJournalPath d ++ ", " ++
      pathText d entry.source ++ ", and " ++ pathText d entry.target ++ " before manual repair.")

/-- `markMove`, with the moves around it. -/
def markMove (journal : SwitchJournal) (before : List SwitchJournalMove) (entry : SwitchJournalMove) (rest : List SwitchJournalMove)
    (state : SwitchMoveState) : SwitchProgram τ SwitchJournal := do
  let marked := { journal with moves := some (before ++ { entry with state := state } :: rest) }
  writeJournal marked
  return marked

/-- One move of `executeSwitchMoves`: the journal with its mark. -/
def executeMove (journal : SwitchJournal) (before : List SwitchJournalMove) (entry : SwitchJournalMove)
    (rest : List SwitchJournalMove) : SwitchProgram τ (SwitchJournal × SwitchMoveState) := do
  let sourceExists ← Program.read fun s => (s.files entry.source).isSome
  let targetExists ← Program.read fun s => (s.files entry.target).isSome
  match sourceExists, targetExists with
  | false, true => return (← markMove journal before entry rest .done, .done)
  | false, false =>
    if !entry.required then return (← markMove journal before entry rest .absent, .absent)
    else throw (unclassifiableMove d entry "neither source nor target exists")
  | true, true => throw (unclassifiableMove d entry "both source and target exist")
  | true, false => do
    Program.write fun s => { s with files := JournaledMoves.rename entry.source entry.target s.files }
    return (← markMove journal before entry rest .done, .done)

/-- The loop of `executeSwitchMoves`, with the moves it has passed. -/
def executeMovesFrom (group : SwitchMoveGroup) :
    SwitchJournal → List SwitchJournalMove → List SwitchJournalMove → SwitchProgram τ SwitchJournal
  | journal, _, [] => pure journal
  | journal, before, entry :: rest =>
    if entry.group ≠ group ∨ entry.state ≠ .pending then executeMovesFrom group journal (before ++ [entry]) rest
    else do
      let (journal, state) ← executeMove d journal before entry rest
      executeMovesFrom group journal (before ++ [{ entry with state := state }]) rest

/-- `executeSwitchMoves`. -/
def executeSwitchMoves (journal : SwitchJournal) (group : SwitchMoveGroup) : SwitchProgram τ SwitchJournal :=
  executeMovesFrom d group journal [] (journal.moves.getD [])

/-- `journalHasRootMovement`. -/
def journalHasRootMovement : Option SwitchJournal → Bool
  | none => false
  | some journal =>
    !(journal.moves.getD []).isEmpty ||
      decide (journal.phase = .parkedOldClient ∨ journal.phase = .restoredTargetClient ∨ journal.phase = .credentialsWritten ∨
        journal.phase = .complete)

/-! ## The switch -/

/-- What a switch and its recovery do alike, once the journal has the moves. -/
def carryOutMoves (journal : SwitchJournal) (r : LoginRequest) : SwitchProgram τ String := do
  let journal ← executeSwitchMoves d journal .park
  let journal ← updateJournal journal .parkedOldClient
  let journal ← executeSwitchMoves d journal .restore
  let journal ← updateJournal journal .restoredTargetClient
  Program.write fun s => { s with credentials := none }
  Program.write fun s => { s with credentials := some ⟨some r.userId, r.serverUrl⟩ }
  let journal ← updateJournal journal .credentialsWritten
  setConfigValue fun yaml => { yaml with serverUrl := some r.serverUrl }
  let clientId ← initConfig r.envClientId r.newClientId
  updateSwitchIndex journal.from ⟨clientId, r.userId, r.serverUrl⟩
  let _ ← updateJournal { journal with «to» := { journal.to with clientId := some clientId } } .complete
  clearSwitchLock
  return clientId

/-- `completePendingSwitchForLogin`. -/
def completePendingSwitchForLogin (journal : SwitchJournal) (r : LoginRequest) : SwitchProgram τ String := do
  Program.check (if journal.to.userId ≠ r.userId ∨ journal.to.serverUrl ≠ r.serverUrl then
      .error (.fail "CLIENT_SWITCH_MANUAL_REPAIR_REQUIRED"
        ("A previous client switch is pending for user " ++ journal.to.userId ++ " on " ++ journal.to.serverUrl ++
          ". Re-run login with that user's token, or inspect " ++ clientSwitchJournalPath d ++ " before manual repair."))
    else .ok ())
  if (journal.moves.getD []).isEmpty then do
    clearSwitchLock
    throw (.fail "CLIENT_SWITCH_RETRY_REQUIRED"
      ("A previous client switch stopped before root state movement. The switch guard was cleared; re-run login to start a fresh " ++
        "switch."))
  else carryOutMoves d journal r

/-- The body of a switch that holds the lock. -/
def runSwitch (journal : SwitchJournal) (r : LoginRequest) : SwitchProgram τ String := do
  writeJournal journal
  Program.check r.guards.service
  let journal ← updateJournal journal .serviceStopped
  Program.check r.guards.runtimes
  Program.check r.guards.drain
  let journal ← updateJournal journal .drainClean
  let targetClientId ← Program.read fun s => s.index.accountDefaults (accountKey r.serverUrl r.userId)
  let journal := { journal with «to» := { journal.to with clientId := targetClientId } }
  writeJournal journal
  let journal := { journal with moves := some (buildSwitchMoves journal.from.clientId targetClientId) }
  writeJournal journal
  carryOutMoves d journal r

/-- The `catch` of a switch: the lock goes when no file has been moved. -/
def abandonSwitch (e : SwitchError) : SwitchProgram τ String := do
  let moved ← Program.read fun s => journalHasRootMovement s.journal
  if moved then throw e
  else do
    clearSwitchLock
    throw e

/-- `CLIENT_OWNER_UNKNOWN_REQUIRES_RESET_OR_OWNER_LOGIN`. -/
def ownerUnknown (message : String) : SwitchError := .fail "CLIENT_OWNER_UNKNOWN_REQUIRES_RESET_OR_OWNER_LOGIN" message

/-- The start of a new switch, from an owner with the server. -/
def startSwitch (previous : Option (String × String)) (r : LoginRequest) : SwitchProgram τ String := do
  match previous with
  | none =>
    throw (ownerUnknown
      ("A previous owner could not be identified, so First Tree cannot safely park the active local client. Run `" ++
      d.binName ++ " computer reset` after backing up local state, or log in as the current owner."))
  | some (previousOwnerSub, previousServerUrl) => do
    match ← Program.read fun s => rootClientId s.files with
    | none =>
      throw (ownerUnknown
        ("Existing client.yaml does not contain a valid client id, so First Tree cannot safely park the active local " ++
        "client. Run `" ++ d.binName ++ " computer reset` after backing up local state, or log in as the current owner."))
    | some oldClientId => do
      acquireSwitchLock
      tryCatch (runSwitch d ⟨.locked, ⟨oldClientId, previousOwnerSub, previousServerUrl⟩, ⟨none, r.userId, r.serverUrl⟩,
        none⟩ r) abandonSwitch

/-- `switchLocalClientForLogin`, under the lock of the account's state. -/
def switchLocalClientForLogin (previous : Option (String × String)) (r : LoginRequest) : SwitchProgram τ String := do
  Program.check r.guards.accountState
  match ← Program.read fun s => s.journal with
  | none => startSwitch d previous r
  | some journal =>
    if journal.phase = .complete then do
      clearSwitchLock
      startSwitch d previous r
    else completePendingSwitchForLogin d journal r

/-! ## The login -/

/-- The owner that a login switches from, with the server. -/
def switchFrom (existing : Option SwitchCredentials) (remembered : Option LocalClientOwner) (r : LoginRequest) :
    Option (String × String) :=
  match existing.bind fun c => (c.ownerSub.filter fun owner => decide (owner ≠ r.userId)).map fun owner => (owner, c.serverUrl) with
  | some «from» => some «from»
  | none => (remembered.filter fun owner => decide (owner.userId ≠ r.userId)).map fun owner => (owner.userId, owner.serverUrl)

/-- The login without a switch. -/
def loginWithoutSwitch (r : LoginRequest) : SwitchProgram τ Unit := do
  setConfigValue fun yaml => { yaml with serverUrl := some r.serverUrl }
  Program.write fun s => { s with credentials := some ⟨some r.userId, r.serverUrl⟩ }
  let clientId ← initConfig r.envClientId r.newClientId
  ensureActiveRootClientIdPersisted clientId
  recordActiveClientOwner ⟨clientId, r.userId, r.serverUrl⟩

/-- A switch that was interrupted is gone on with before anything else. -/
def recoverSwitch (r : LoginRequest) : SwitchProgram τ (Option String) := do
  let incomplete ← Program.read hasIncompleteClientSwitch
  if incomplete then do
    let clientId ← switchLocalClientForLogin d none r
    return some clientId
  else return none

/-- A switch from the account of another user, unless one has been recovered. -/
def switchAccount (previous : Option (String × String)) (r : LoginRequest) : Option String → SwitchProgram τ (Option String)
  | some clientId => pure (some clientId)
  | none =>
    match previous with
    | none => pure none
    | some previous => do
      Program.check r.confirmed
      let clientId ← switchLocalClientForLogin d (some previous) r
      return some clientId

/-- The login after its connect code is exchanged, up to where it asks the server. -/
def login (r : LoginRequest) : SwitchProgram τ Unit := do
  let rootClientIdBeforeLogin ← Program.read fun s => rootClientId s.files
  let existing ← Program.read fun s => s.credentials
  let remembered ← Program.read readActiveClientOwner
  Program.check (if existing.any fun c => c.ownerSub.isNone then
      .error (ownerUnknown
        ("Existing credentials do not expose an owner user id, so First Tree cannot safely decide whether this is a " ++
        "same-user refresh or account switch."))
    else .ok ())
  let recovered ← recoverSwitch d r
  let config ← switchAccount d (switchFrom existing remembered r) r recovered
  Program.check (if existing.isNone && remembered.isNone && rootClientIdBeforeLogin.isSome then
      .error (ownerUnknown
        ("Existing client.yaml has no credentials or remembered owner metadata, so First Tree cannot safely decide " ++
        "whether this is a same-user reconnect or account switch. Run `" ++ d.binName ++
          " computer reset` after backing up local state, " ++
        "or restore/log in from a state that still has the current owner's credentials."))
    else .ok ())
  match config with
  | some _ => pure ()
  | none => loginWithoutSwitch r

end ClientSwitch

/-! ## The computer -/

/-- What is done on a computer, one at a time: a login, or the work of the active client on a file of its own. -/
inductive ClientOp (τ : Type) where
  | login (r : LoginRequest)
  | work (item : SwitchItem) (file : Option (SwitchFile τ))

/-- Where it may begin. A daemon that was started before a switch goes on until the switch has stopped and drained it, which it
has when the journal gets its moves; none is started while the lock or a journal is there. -/
def ClientOp.admits {τ : Type} : ClientOp τ → HomeStore τ → Bool
  | .login r, s => ClientSwitch.isClientId r.newClientId && decide (r.newClientId ∉ s.generated)
  | .work item _, s => decide (item ≠ .clientYaml) &&
      s.journal.all fun journal => decide (journal.phase = .complete) || journal.moves.isNone

/-- The program of it. -/
def ClientOp.program {τ : Type} (d : SwitchDirs) : ClientOp τ → SwitchProgram τ Unit
  | .login r => do
    Program.write fun s => { s with generated := r.newClientId :: s.generated }
    ClientSwitch.login d r
  | .work item file => Program.write fun s => { s with files := Function.update s.files (.active item) file }

/-- A computer; what a crash interrupts only the next login goes on with. -/
def clientComputer (τ : Type) (d : SwitchDirs) : Service (ClientOp τ) (HomeStore τ) SwitchError where
  admits := ClientOp.admits
  program := ClientOp.program d
  recovery := pure ()

end FirstTree
