import FirstTree.Lib.Transactions
import FirstTree.Lib.LockedPrograms
import FirstTree.Server.ChatProjection

/-!
# The archive sweep of a chat

The statements of `sweepChatArchive` next to the sends of one chat. A sweep is one statement: it finds its rows in one snapshot
and then writes them one by one, each under the row's lock and after its conflict clause has looked at the row that is committed
by then. A send is a transaction of several statements. What a sweep reads of other tables comes with it; of a send, what writes
the user states is kept.
-/

namespace FirstTree

open Transactions

/-- `CHAT_ENGAGEMENT_STATUSES`. -/
inductive EngagementStatus where
  | active | archived | deleted
  deriving DecidableEq

/-- A row of `chat_user_state`. -/
structure ChatUserState where
  engagementStatus : EngagementStatus
  unreadMentionCount : Nat
  openRequestCount : Nat
  lastReadAt : Option Timestamp
  deriving DecidableEq

/-- A row of a table of SCM mappings, with the lifecycle of its entity. -/
structure ScmMapping where
  entityState : String
  humanAgentId : Option String
  delegateAgentId : Option String
  active : Bool

/-- What a sweep reads of a chat but its user states and its last message. -/
structure SweepReads where
  source : Option String
  parentChatId : Option String
  githubMappings : List ScmMapping
  gitlabMappings : List ScmMapping
  memberHumans : List String
  running : Bool
  now : Int
  idleMicros : Int
  batchSize : Nat

/-- The two branches of a sweep. -/
inductive SweepBranch where
  | mapped | unmapped
  deriving DecidableEq

/-- The committed rows of the chat, the number of its messages, and for each row that a sweep has archived, the number of messages
in the snapshot of the sweep that did so last. -/
structure ArchiveStore where
  lastMessageAt : Option Timestamp
  states : Rows String ChatUserState
  messageCount : Nat
  archivedAt : Rows String Nat

/-- A send: its message, the agent whom its request asks, and the agent whose request it resolves. -/
structure ArchiveSend where
  message : ProjectedMessage
  opensFor : Option String
  resolvesFor : Option String

/-- The statement a send runs next, with the rows that are left of one. -/
inductive ArchiveSendStatement where
  | updateChat
  | revive
  | reviveRows (agentIds : List String)
  | bumpRows (agentIds : List String)
  | openRequest
  | closeRequest
  | done

/-- An open send: its next statement, whether it holds the row of the chat, its uncommitted rows and those it holds. -/
structure ArchiveSendTx where
  call : ArchiveSend
  next : ArchiveSendStatement
  locksChat : Bool
  states : Rows String ChatUserState
  lockedStates : List String

/-- A sweep under way: the messages of its snapshot, the rows that are left, its uncommitted rows and those it holds. -/
structure SweepTx where
  messageCount : Nat
  rows : List String
  states : Rows String ChatUserState
  lockedStates : List String

/-- An open transaction. -/
inductive ArchiveTx where
  | send (t : ArchiveSendTx)
  | sweep (t : SweepTx)

/-- The chat with the transactions open on it. -/
abbrev ArchiveSystem (Tx : Type) := System ArchiveStore Tx ArchiveTx

/-- What can happen: a send begins, a branch of a sweep takes its snapshot with some of the rows it finds, and an open transaction
takes its next step, commits or rolls back. -/
inductive ArchiveOp (Tx : Type) where
  | sendMessage (tx : Tx) (call : ArchiveSend)
  | sweep (tx : Tx) (branch : SweepBranch) (reads : SweepReads) (rows : List String)
  | run (tx : Tx)
  | commit (tx : Tx)
  | rollback (tx : Tx)

namespace ChatArchive

/-! ## The rows of a sweep -/

/-- No row of the chat has an open request. -/
def noOpenRequest (states : Rows String ChatUserState) : Bool :=
  states.entries.all fun e => decide (e.2.openRequestCount = 0)

/-- The conditions on the chat that both branches share: its origin, and that it is idle without open requests and running
sessions. -/
def chatEligible (reads : SweepReads) (store : ArchiveStore) : Bool :=
  decide (reads.source = some "github" ∨ reads.source = some "gitlab") && reads.parentChatId.isNone &&
    store.lastMessageAt.any (fun lastMessageAt => decide (lastMessageAt.micros < reads.now - reads.idleMicros)) &&
    noOpenRequest store.states && !reads.running

/-- The mappings whose states guard the chat. -/
def entityMappings (reads : SweepReads) : List ScmMapping := reads.githubMappings ++ reads.gitlabMappings.filter (·.active)

/-- `scm_archive_targets`. -/
def archiveTargets (reads : SweepReads) : List String :=
  reads.githubMappings.filterMap (·.humanAgentId) ++
    (reads.gitlabMappings.filter fun m => m.active && m.humanAgentId.isSome && m.delegateAgentId.isSome).filterMap (·.humanAgentId)

/-- The rows that the mapped branch finds. -/
def mappedRows (reads : SweepReads) (store : ArchiveStore) : List String :=
  if chatEligible reads store && (entityMappings reads).all fun m => decide (m.entityState = "closed" ∨ m.entityState = "merged") then
    (archiveTargets reads).dedup.filter fun human =>
      (store.states.lookup human).all fun row => decide (row.engagementStatus = .active ∧ row.unreadMentionCount = 0)
  else []

/-- The rows that the branch without mappings finds. -/
def unmappedRows (reads : SweepReads) (store : ArchiveStore) : List String :=
  if chatEligible reads store && reads.githubMappings.isEmpty && (reads.gitlabMappings.filter (·.active)).isEmpty then
    reads.memberHumans.filter fun human => (store.states.lookup human).any fun row =>
      row.lastReadAt.isSome && decide (row.unreadMentionCount = 0 ∧ row.engagementStatus = .active)
  else []

/-- The rows that a branch finds. -/
def archivableRows : SweepBranch → SweepReads → ArchiveStore → List String
  | .mapped => mappedRows
  | .unmapped => unmappedRows

/-- What the upsert of a sweep makes of a row, when its conflict clause lets it. -/
def archiveRow : Option ChatUserState → Option ChatUserState
  | none => some { engagementStatus := .archived, unreadMentionCount := 0, openRequestCount := 0, lastReadAt := none }
  | some row =>
    if row.engagementStatus = .active ∧ row.unreadMentionCount = 0 then some { row with engagementStatus := .archived } else none

/-! ## The rows of a send -/

/-- The auto-revive of a row. -/
def reviveRow (row : ChatUserState) : Option ChatUserState :=
  if row.engagementStatus = .archived then some { row with engagementStatus := .active } else none

/-- A row as it is inserted. -/
def emptyState : ChatUserState := { engagementStatus := .active, unreadMentionCount := 0, openRequestCount := 0, lastReadAt := none }

/-- The row of an agent as a send sees it. -/
def visibleState (store : ArchiveStore) (t : ArchiveSendTx) (agentId : String) : Option ChatUserState :=
  (t.states.lookup agentId).or (store.states.lookup agentId)

/-- A send that has locked a row and, when there is something to write, has written it. -/
def writeState (t : ArchiveSendTx) (agentId : String) (row : Option ChatUserState) (next : ArchiveSendStatement) : ArchiveSendTx :=
  { t with
    states := match row with
      | some row => t.states.insert agentId row
      | none => t.states
    lockedStates := agentId :: t.lockedStates
    next := next }

variable {Tx : Type} [DecidableEq Tx]

/-- The rows a transaction holds. -/
def lockedStates : ArchiveTx → List String
  | .send t => t.lockedStates
  | .sweep t => t.lockedStates

/-- No other transaction holds the row. -/
def stateFree (s : ArchiveSystem Tx) (tx : Tx) (agentId : String) : Bool :=
  (s.others tx).all fun t => decide (agentId ∉ lockedStates t)

/-- No other send holds the row of the chat. -/
def chatFree (s : ArchiveSystem Tx) (tx : Tx) : Bool :=
  (s.others tx).all fun
    | .send t => !t.locksChat
    | .sweep _ => true

/-- The next step of a send, when nothing it needs is locked. -/
def runSend (s : ArchiveSystem Tx) (tx : Tx) (t : ArchiveSendTx) : Option ArchiveSendTx :=
  match t.next with
  | .updateChat => if chatFree s tx then some { t with locksChat := true, next := .revive } else none
  | .revive =>
    -- The update finds its rows in the snapshot of its statement, and looks at each one again under its lock.
    some { t with next := .reviveRows ((s.store.states.entries.filter fun e => decide (e.2.engagementStatus = .archived)).map (·.1)) }
  | .reviveRows (agentId :: agentIds) =>
    if stateFree s tx agentId then
      some (writeState t agentId ((visibleState s.store t agentId).bind reviveRow) (.reviveRows agentIds))
    else none
  | .reviveRows [] =>
    some { t with next := .bumpRows (Projection.unreadTargets t.call.message.tables (Projection.projectionInput t.call.message)) }
  | .bumpRows (agentId :: agentIds) =>
    if stateFree s tx agentId then
      let row := (visibleState s.store t agentId).getD emptyState
      some (writeState t agentId (some { row with unreadMentionCount := row.unreadMentionCount + 1 }) (.bumpRows agentIds))
    else none
  | .bumpRows [] => some { t with next := .openRequest }
  | .openRequest =>
    match t.call.opensFor with
    | none => some { t with next := .closeRequest }
    | some agentId =>
      if stateFree s tx agentId then
        let row := (visibleState s.store t agentId).getD emptyState
        some (writeState t agentId (some { row with openRequestCount := row.openRequestCount + 1 }) .closeRequest)
      else none
  | .closeRequest =>
    match t.call.resolvesFor with
    | none => some { t with next := .done }
    | some agentId =>
      if stateFree s tx agentId then
        -- GREATEST(0, open_request_count - 1) is the subtraction of naturals.
        some (writeState t agentId ((visibleState s.store t agentId).map fun row =>
          { row with openRequestCount := row.openRequestCount - 1 }) .done)
      else none
  | .done => none

/-- The next step of a sweep, when the row it comes to is not locked. -/
def runSweep (s : ArchiveSystem Tx) (tx : Tx) (t : SweepTx) : Option SweepTx :=
  match t.rows with
  | agentId :: rows =>
    if stateFree s tx agentId then
      some { t with
        rows := rows
        states := match archiveRow (s.store.states.lookup agentId) with
          | some row => t.states.insert agentId row
          | none => t.states
        lockedStates := agentId :: t.lockedStates }
    else none
  | [] => none

/-! ## Steps -/

/-- The store after a transaction, when it has taken all its steps. -/
def commitTx (store : ArchiveStore) : ArchiveTx → Option ArchiveStore
  | .send t =>
    match t.next with
    | .done => some
      { lastMessageAt := some t.call.message.createdAt.toDate.toTimestamp
        states := t.states ∪ store.states
        messageCount := store.messageCount + 1
        archivedAt := store.archivedAt }
    | _ => none
  | .sweep t =>
    match t.rows with
    | [] => some
      { store with
        states := t.states ∪ store.states
        archivedAt := t.states.keys.foldl (fun archivedAt agentId => archivedAt.insert agentId t.messageCount) store.archivedAt }
    | _ => none

/-- A send that has run no statement. -/
def newSend (call : ArchiveSend) : ArchiveSendTx :=
  { call := call, next := .updateChat, locksChat := false, states := ∅, lockedStates := [] }

/-- One step. -/
def step (s : ArchiveSystem Tx) : ArchiveOp Tx → Option (ArchiveSystem Tx)
  | .sendMessage tx call => if (s.find tx).isNone then some (s.put s.store tx (some (.send (newSend call)))) else none
  | .sweep tx branch reads rows =>
    -- LIMIT takes any of the rows.
    if (s.find tx).isNone ∧ rows.Nodup ∧ rows ⊆ archivableRows branch reads s.store ∧ rows.length ≤ reads.batchSize then
      some (s.put s.store tx (some (.sweep { messageCount := s.store.messageCount, rows := rows, states := ∅, lockedStates := [] })))
    else none
  | .run tx =>
    (s.find tx).bind fun
      | .send t => (runSend s tx t).map fun t' => s.put s.store tx (some (.send t'))
      | .sweep t => (runSweep s tx t).map fun t' => s.put s.store tx (some (.sweep t'))
  | .commit tx => (s.find tx).bind fun t => (commitTx s.store t).map fun store => s.put store tx none
  | .rollback tx => (s.find tx).map fun _ => s.put s.store tx none

end ChatArchive

end FirstTree
