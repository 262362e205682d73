import Mathlib.Data.List.AList
import FirstTree.Lib.Transactions

/-!
# The sessions of an agent

The `agent_chat_sessions` rows of one agent, the counters of its `agent_presence` row, and its `session_events`. Each service call
is a transaction of several statements: a statement reads what is committed, with the transaction's own writes over it, and a
write holds its row until the transaction ends. A deadlock rolls a transaction back, and the retry is a new transaction.
Timestamps, notifications and the payloads of events are left out.
-/

namespace FirstTree

open Transactions

/-- Session states. -/
inductive SessionState where
  | active
  | suspended
  | errored
  | evicted
  deriving DecidableEq, Repr

/-- The runtime state of one session. -/
inductive RuntimeState where
  | idle
  | working
  | blocked
  | error
  deriving DecidableEq, Repr

/-- A row of `agent_chat_sessions`. -/
structure SessionRow where
  state : SessionState
  runtimeState : RuntimeState
  deriving DecidableEq, Repr

/-- The counters of an `agent_presence` row. -/
structure PresenceCounts where
  activeSessions : Nat
  totalSessions : Nat
  deriving DecidableEq, Repr

/-- A row of `session_events`. -/
structure SessionEventRow (Chat : Type) where
  id : Nat
  chatId : Chat
  seq : Nat
  deriving DecidableEq, Repr

/-- The session rows by chat. -/
abbrev SessionRows (Chat : Type) := AList fun _ : Chat => SessionRow

/-- What a committed call did: an upsert wrote a state, a terminate returned `evicted` and deleted the events of these ids, or an
event was appended. -/
inductive SessionCommit (Chat : Type) where
  | upserted (chatId : Chat) (state : SessionState)
  | finalized (chatId : Chat) (deletedIds : List Nat)
  | appended (event : SessionEventRow Chat)
  deriving DecidableEq

/-- The committed rows of the agent, the event ids handed out, and what the committed calls did, in order. -/
structure SessionStore (Chat : Type) where
  sessions : SessionRows Chat
  presence : Option PresenceCounts
  events : List (SessionEventRow Chat)
  issuedIds : List Nat
  history : List (SessionCommit Chat)

/-- The calls on the sessions of an agent. -/
inductive SessionCall (Chat : Type) where
  | upsertSessionState (chatId : Chat) (state : SessionState)
  | suspendSession (chatId : Chat)
  | archiveSession (chatId : Chat)
  | finalizeTerminatedSession (chatId : Chat)
  | archiveAllSessionsForAgent (runtimeSwitchClaim : Bool)
  | appendLiveEvent (chatId : Chat)
  deriving DecidableEq

/-- The statement a transaction runs next. -/
inductive SessionStatement (Chat : Type) where
  | lockAgentShare (chatId : Chat) (state : SessionState)
  | upsertRow (chatId : Chat) (state : SessionState)
  | lockForTransition (chatId : Chat) (target : SessionState) (sources : List SessionState)
  | writeTransition (chatId : Chat) (target : SessionState) (canTransition : Bool)
  | lockForFinalize (chatId : Chat)
  | repairEvicted (chatId : Chat)
  | evictRow (chatId : Chat)
  | clearEvents (chatId : Chat) (transitioned : Bool)
  | countSessions (insertPresence : Bool)
  | writePresence (insertPresence : Bool) (counts : PresenceCounts)
  | lockAgentUpdate
  | scanSessions
  | evictScanned (chatIds : List Chat)
  | clearAllEvents
  | zeroPresence
  | lockForAppend (chatId : Chat)
  | nextSeq (chatId : Chat)
  | insertEvent (chatId : Chat) (seq : Nat)
  | done
  deriving DecidableEq

/-- The lock a transaction holds on the agent's row. -/
inductive AgentLock where
  | keyShare
  | update
  deriving DecidableEq, Repr

/-- An open transaction: its next statement, the locks it holds, its uncommitted writes, what it counted, and what its commit
records. -/
structure SessionTx (Chat : Type) where
  next : SessionStatement Chat
  agentLock : Option AgentLock
  lockedRows : List Chat
  locksPresence : Bool
  rows : SessionRows Chat
  presence : Option PresenceCounts
  counted : Option PresenceCounts
  deletedIds : List Nat
  newEvents : List (SessionEventRow Chat)
  outcome : Option (SessionCommit Chat)

/-- The sessions of an agent with the transactions open on them. -/
abbrev SessionSystem (Chat Tx : Type) := System (SessionStore Chat) Tx (SessionTx Chat)

/-- What can happen: a call begins, an open transaction runs its next statement (with a new event id, when it needs one), commits or
rolls back; a runtime report is one statement of its own. -/
inductive SessionOp (Chat Tx : Type) where
  | begin (tx : Tx) (call : SessionCall Chat)
  | run (tx : Tx) (eventId : Nat)
  | commit (tx : Tx)
  | rollback (tx : Tx)
  | setSessionRuntime (chatId : Chat) (runtimeState : RuntimeState)

namespace Sessions

variable {Chat Tx : Type} [DecidableEq Chat] [DecidableEq Tx]

/-- `count(*) FILTER (WHERE state = 'active')` and `count(*) FILTER (WHERE state != 'evicted')`. -/
def countRows (rows : SessionRows Chat) : PresenceCounts :=
  { activeSessions := rows.entries.countP fun e => decide (e.2.state = .active)
    totalSessions := rows.entries.countP fun e => decide (e.2.state ≠ .evicted) }

/-- The rows a transaction sees: its own writes over the committed rows. -/
def visibleRows (store : SessionStore Chat) (t : SessionTx Chat) : SessionRows Chat := t.rows ∪ store.sessions

/-- The first statement of a call. -/
def firstStatement : SessionCall Chat → SessionStatement Chat
  | .upsertSessionState chatId state => .lockAgentShare chatId state
  | .suspendSession chatId => .lockForTransition chatId .suspended [.active]
  | .archiveSession chatId => .lockForTransition chatId .evicted [.suspended, .errored]
  | .finalizeTerminatedSession chatId => .lockForFinalize chatId
  | .archiveAllSessionsForAgent runtimeSwitchClaim => if runtimeSwitchClaim then .lockAgentUpdate else .scanSessions
  | .appendLiveEvent chatId => .lockForAppend chatId

/-- A transaction that has run no statement. -/
def newTx (call : SessionCall Chat) : SessionTx Chat :=
  { next := firstStatement call, agentLock := none, lockedRows := [], locksPresence := false, rows := ∅, presence := none,
    counted := none, deletedIds := [], newEvents := [], outcome := none }

/-- No other transaction holds the session row, or its key while it is inserted. -/
def rowFree (s : SessionSystem Chat Tx) (tx : Tx) (chatId : Chat) : Bool :=
  (s.others tx).all fun t => decide (chatId ∉ t.lockedRows)

/-- No other transaction holds the presence row, or its key while it is inserted. -/
def presenceFree (s : SessionSystem Chat Tx) (tx : Tx) : Bool :=
  (s.others tx).all fun t => !t.locksPresence

/-- No other transaction holds a lock on the agent's row that conflicts. -/
def agentFree (s : SessionSystem Chat Tx) (tx : Tx) : AgentLock → Bool
  | .keyShare => (s.others tx).all fun t => decide (t.agentLock ≠ some .update)
  | .update => (s.others tx).all fun t => t.agentLock.isNone

/-- A transaction that has written its session row. -/
def writeRow (t : SessionTx Chat) (chatId : Chat) (row : SessionRow) (next : SessionStatement Chat) : SessionTx Chat :=
  { t with rows := t.rows.insert chatId row, next := next }

/-- A transaction that has locked a session row. -/
def lockRow (t : SessionTx Chat) (chatId : Chat) (next : SessionStatement Chat) : SessionTx Chat :=
  { t with lockedRows := chatId :: t.lockedRows, next := next }

/-- Whether `ON CONFLICT DO UPDATE` writes the row: `setWhere`. -/
def upsertChanges (row : SessionRow) (state : SessionState) : Bool :=
  if state ≠ .active then decide (row.state ≠ state) || decide (row.runtimeState ≠ .idle) else decide (row.state ≠ state)

/-- The insert or update of an upsert, which takes the row's lock either way. -/
def upsertRow (store : SessionStore Chat) (t : SessionTx Chat) (chatId : Chat) (state : SessionState) : SessionTx Chat :=
  let write := fun runtimeState => { writeRow (lockRow t chatId .done) chatId { state := state, runtimeState := runtimeState }
    (.countSessions true) with outcome := some (.upserted chatId state) }
  match store.sessions.lookup chatId with
  | none => write .idle
  | some row =>
    if upsertChanges row state then write (if state ≠ .active then .idle else row.runtimeState) else lockRow t chatId .done

/-- The locked row decides what a suspend or an archive writes. -/
def decideTransition (t : SessionTx Chat) (chatId : Chat) (target : SessionState) (sources : List SessionState) (row : SessionRow) :
    SessionTx Chat :=
  let canTransition := sources.contains row.state
  let resolvedState := if canTransition then target else row.state
  let mustRevokeRuntime := resolvedState ≠ .active ∧ row.runtimeState ≠ .idle
  lockRow t chatId (if ¬ canTransition ∧ ¬ mustRevokeRuntime then .done else .writeTransition chatId target canTransition)

/-- The locked row decides what a terminate does. -/
def decideFinalize (t : SessionTx Chat) (chatId : Chat) (row : SessionRow) : SessionTx Chat :=
  match row.state with
  | .evicted => lockRow t chatId (if row.runtimeState ≠ .idle then .repairEvicted chatId else .clearEvents chatId false)
  | .suspended | .errored => lockRow t chatId (.evictRow chatId)
  | .active => lockRow t chatId .done

/-- The ids of the events of a chat. -/
def eventIds (store : SessionStore Chat) (p : SessionEventRow Chat → Bool) : List Nat :=
  (store.events.filter p).map (·.id)

/-- `COALESCE(MAX(seq), 0) + 1` over the events of a chat. -/
def nextSeqOf (store : SessionStore Chat) (chatId : Chat) : Nat :=
  (((store.events.filter fun e => decide (e.chatId = chatId)).map (·.seq)).max?.getD 0) + 1

/-- A write of the counters: an update finds no row when there is none, an insert or update always writes. -/
def writePresence (s : SessionSystem Chat Tx) (tx : Tx) (t : SessionTx Chat) (insertPresence : Bool) (counts : PresenceCounts) :
    Option (SessionTx Chat) :=
  if s.store.presence.isNone ∧ insertPresence = false then some { t with next := .done }
  else if presenceFree s tx then some { t with presence := some counts, locksPresence := true, next := .done }
  else none

/-- The next statement of an open transaction, when nothing it needs is locked. -/
def runStatement (s : SessionSystem Chat Tx) (tx : Tx) (t : SessionTx Chat) (eventId : Nat) : Option (SessionTx Chat) :=
  match t.next with
  | .lockAgentShare chatId state =>
    if agentFree s tx .keyShare then some { t with agentLock := some .keyShare, next := .upsertRow chatId state } else none
  | .upsertRow chatId state => if rowFree s tx chatId then some (upsertRow s.store t chatId state) else none
  | .lockForTransition chatId target sources =>
    match s.store.sessions.lookup chatId with
    | none => some { t with next := .done }
    | some row => if rowFree s tx chatId then some (decideTransition t chatId target sources row) else none
  | .writeTransition chatId target canTransition =>
    (s.store.sessions.lookup chatId).map fun row =>
      writeRow t chatId { state := if canTransition then target else row.state, runtimeState := .idle }
        (if canTransition then .countSessions false else .done)
  | .lockForFinalize chatId =>
    match s.store.sessions.lookup chatId with
    | none => some { t with next := .done }
    | some row => if rowFree s tx chatId then some (decideFinalize t chatId row) else none
  | .repairEvicted chatId =>
    (s.store.sessions.lookup chatId).map fun row => writeRow t chatId { row with runtimeState := .idle } (.clearEvents chatId false)
  | .evictRow chatId => some (writeRow t chatId { state := .evicted, runtimeState := .idle } (.clearEvents chatId true))
  | .clearEvents chatId transitioned =>
    let deletedIds := eventIds s.store fun e => decide (e.chatId = chatId)
    some { t with
      deletedIds := deletedIds
      outcome := some (.finalized chatId deletedIds)
      next := if transitioned then .countSessions false else .done }
  | .countSessions insertPresence =>
    let counts := countRows (visibleRows s.store t)
    some { t with counted := some counts, next := .writePresence insertPresence counts }
  | .writePresence insertPresence counts => writePresence s tx t insertPresence counts
  | .lockAgentUpdate => if agentFree s tx .update then some { t with agentLock := some .update, next := .scanSessions } else none
  | .scanSessions =>
    some { t with next := .evictScanned ((s.store.sessions.entries.filter fun e => decide (e.2.state ≠ .evicted)).map (·.1)) }
  | .evictScanned [] => some { t with next := .clearAllEvents }
  | .evictScanned (chatId :: chatIds) =>
    if rowFree s tx chatId then
      match s.store.sessions.lookup chatId with
      | some row =>
        if row.state ≠ .evicted then
          some (writeRow (lockRow t chatId .done) chatId { state := .evicted, runtimeState := .idle } (.evictScanned chatIds))
        else some { t with next := .evictScanned chatIds }
      | none => some { t with next := .evictScanned chatIds }
    else none
  | .clearAllEvents => some { t with deletedIds := eventIds s.store fun _ => true, next := .zeroPresence }
  | .zeroPresence =>
    (writePresence s tx t false { activeSessions := 0, totalSessions := 0 }).map fun t =>
      { t with counted := some { activeSessions := 0, totalSessions := 0 } }
  | .lockForAppend chatId =>
    match s.store.sessions.lookup chatId with
    | none => some { t with next := .nextSeq chatId }
    | some row =>
      if rowFree s tx chatId then some (lockRow t chatId (if row.state = .evicted then .done else .nextSeq chatId)) else none
  | .nextSeq chatId => some { t with next := .insertEvent chatId (nextSeqOf s.store chatId) }
  | .insertEvent chatId seq =>
    -- The unique key of (chat, seq): another transaction's uncommitted row is waited for, a committed one makes this a no-op.
    if (s.others tx).any fun o => o.newEvents.any fun e => decide (e.chatId = chatId ∧ e.seq = seq) then none
    else if s.store.events.any fun e => decide (e.chatId = chatId ∧ e.seq = seq) then some { t with next := .done }
    else
      let event := { id := eventId, chatId := chatId, seq := seq }
      some { t with newEvents := [event], outcome := some (.appended event), next := .done }
  | .done => none

/-- The store after a commit. -/
def commitStore (store : SessionStore Chat) (t : SessionTx Chat) : SessionStore Chat :=
  { sessions := visibleRows store t
    presence := t.presence.or store.presence
    events := (store.events.filter fun e => decide (e.id ∉ t.deletedIds)) ++ t.newEvents
    issuedIds := store.issuedIds
    history := store.history ++ t.outcome.toList }

/-- The runtime report of an active session; a report for any other row is dropped. -/
def reportRuntime (store : SessionStore Chat) (chatId : Chat) (runtimeState : RuntimeState) (free : Bool) :
    Option (SessionStore Chat) :=
  match store.sessions.lookup chatId with
  | some row =>
    if row.state ≠ .active then some store
    else if free then some { store with sessions := store.sessions.insert chatId { row with runtimeState := runtimeState } }
    else none
  | none => some store

/-- No open transaction holds the session row. -/
def rowUnlocked (s : SessionSystem Chat Tx) (chatId : Chat) : Bool :=
  s.active.entries.all fun e => decide (chatId ∉ e.2.lockedRows)

/-- One step. Event ids are never handed out twice. -/
def step (s : SessionSystem Chat Tx) : SessionOp Chat Tx → Option (SessionSystem Chat Tx)
  | .begin tx call => if s.find tx = none then some (s.put s.store tx (some (newTx call))) else none
  | .run tx eventId =>
    if eventId ∈ s.store.issuedIds then none
    else
      (s.find tx).bind fun t => (runStatement s tx t eventId).map fun t' =>
        s.put { s.store with issuedIds := eventId :: s.store.issuedIds } tx (some t')
  | .commit tx => (s.find tx).bind fun t => if t.next = .done then some (s.put (commitStore s.store t) tx none) else none
  | .rollback tx => (s.find tx).map fun _ => s.put s.store tx none
  | .setSessionRuntime chatId runtimeState =>
    (reportRuntime s.store chatId runtimeState (rowUnlocked s chatId)).map fun store => { s with store := store }

/-- An agent without sessions, events or a presence row. -/
def init : SessionSystem Chat Tx :=
  .idle { sessions := ∅, presence := none, events := [], issuedIds := [], history := [] }

end Sessions

end FirstTree
