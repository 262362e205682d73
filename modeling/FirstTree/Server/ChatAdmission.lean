import FirstTree.Server.ChatMembership
import FirstTree.Server.InboxContext

/-!
# Sends and admissions of one chat

The transactions of `sendMessage` and of `addChatParticipants` on one chat. A send reads the speakers, inserts its message and
fans it out to the speakers it has read; an admission inserts speakers and gives each one that is new the latest messages as
silent rows. A statement reads what is committed when it runs, with its transaction's own writes over it. The insert of a message
locks the row of its chat as every reference to it does; an admission holds that row for update. What preflight checks of a send,
and the other rows a send writes, are left out: a send that is refused rolls back.
-/

namespace FirstTree

open Transactions Inbox ChatMembership

/-- A row of `messages`; `createdAt` is the time its transaction began at. -/
structure PostedMessage where
  id : String
  senderId : String
  createdAt : Int
  deriving DecidableEq

/-- A row of `inbox_entries` for a message of the chat. -/
structure ChatInboxRow where
  inboxId : String
  messageId : String
  notify : Bool
  deriving DecidableEq

/-- The committed rows, and the messages that were committed when each speaker was admitted. -/
structure AdmissionStore where
  membership : Membership
  messages : List PostedMessage
  inbox : List ChatInboxRow
  precedes : Rows String (List PostedMessage)

/-- A lock on the row of the chat. -/
inductive ChatRowLock where
  | keyShare | noKeyUpdate | update
  deriving DecidableEq

/-- A send: its message, whether the trusted channel ingress sends it, the agents it wakes, and whether the chat is one whose row
it locks after reading it. -/
structure ChatSend where
  message : PostedMessage
  integrationSender : Bool
  wakes : List String
  locksChatRow : Bool

/-- A call of `addChatParticipants`. -/
structure ChatJoin where
  participants : List String
  options : AddChatParticipantsOptions

/-- The statement a send runs next, with the participants it has read. -/
inductive SendStatement where
  | readParticipants
  | lockChat (participants : List (String × ChatAgent))
  | insertMessage (participants : List (String × ChatAgent))
  | fanOut (participants : List (String × ChatAgent))
  | updateChat
  | done

/-- The statement an admission runs next, with what it has read. -/
inductive JoinStatement where
  | lockAgents
  | lockMembership
  | lockChat
  | readAgents
  | readExisting
  | insertSpeakers (existing : Membership)
  | readRecent (crossing : List String)
  | backfill (crossing : List String) (recent : List PostedMessage)
  | insertWatchers
  | dropWatchers
  | done

/-- An open send: its next statement, its lock on the chat's row and its uncommitted rows. -/
structure SendTx where
  call : ChatSend
  next : SendStatement
  chatLock : Option ChatRowLock
  message : Option PostedMessage
  inbox : List ChatInboxRow

/-- An open admission: its next statement, its locks and its uncommitted rows. -/
structure JoinTx where
  call : ChatJoin
  next : JoinStatement
  agentLocks : List String
  membershipLock : Bool
  chatLock : Option ChatRowLock
  membership : List (Write String AccessMode)
  inbox : List ChatInboxRow

/-- An open transaction. -/
inductive AdmissionTx where
  | send (t : SendTx)
  | join (t : JoinTx)

/-- The chat with the transactions open on it. -/
abbrev AdmissionSystem (Tx : Type) := System AdmissionStore Tx AdmissionTx

/-- What can happen: a send or an admission begins, and an open transaction runs its next statement, commits or rolls back. `order` is
the order in which the database has the messages, should the statement sort them. -/
inductive AdmissionOp (Tx : Type) where
  | sendMessage (tx : Tx) (call : ChatSend)
  | addChatParticipants (tx : Tx) (call : ChatJoin)
  | run (tx : Tx) (order : List PostedMessage)
  | commit (tx : Tx)
  | rollback (tx : Tx)

namespace ChatAdmission

/-! ## Locks -/

/-- Which locks on one row exclude each other. -/
def ChatRowLock.conflicts : ChatRowLock → ChatRowLock → Bool
  | .update, _ | _, .update => true
  | .noKeyUpdate, .noKeyUpdate => true
  | _, _ => false

/-- The lock of a transaction that already holds one. -/
def strengthen : Option ChatRowLock → ChatRowLock → ChatRowLock
  | some .update, _ => .update
  | _, lock => lock

/-- The lock a transaction holds on the chat's row. -/
def chatLock : AdmissionTx → Option ChatRowLock
  | .send t => t.chatLock
  | .join t => t.chatLock

variable {Tx : Type} [DecidableEq Tx]

/-- No other transaction holds a lock on the chat's row that excludes this one. -/
def chatFree (s : AdmissionSystem Tx) (tx : Tx) (lock : ChatRowLock) : Bool :=
  (s.others tx).all fun t => (chatLock t).all fun held => !ChatRowLock.conflicts held lock

/-- No other admission holds the advisory lock of one of the agents. -/
def agentsFree (s : AdmissionSystem Tx) (tx : Tx) (agentIds : List String) : Bool :=
  (s.others tx).all fun
    | .send _ => true
    | .join t => agentIds.all fun agentId => decide (agentId ∉ t.agentLocks)

/-- No other admission holds the advisory lock of the chat's membership. -/
def membershipFree (s : AdmissionSystem Tx) (tx : Tx) : Bool :=
  (s.others tx).all fun
    | .send _ => true
    | .join t => !t.membershipLock

/-- No committed message, and no other transaction's, has the id. -/
def idFree (s : AdmissionSystem Tx) (tx : Tx) (id : String) : Bool :=
  (s.store.messages.all fun m => decide (m.id ≠ id)) && (s.others tx).all fun
    | .send t => decide (t.message.map (·.id) ≠ some id)
    | .join _ => true

/-! ## A send -/

/-- `fanout`: the active speakers but the sender. -/
def fanout (call : ChatSend) (participants : List (String × ChatAgent)) : List ChatInboxRow :=
  ((participants.filter fun p => decide (p.1 ≠ call.message.senderId)).filter fun p => decide (p.2.status = .active)).map fun p =>
    { inboxId := p.2.inboxId, messageId := call.message.id, notify := call.wakes.contains p.1 }

/-- No two rows, and none of them and a committed one, are for one inbox and one message. -/
def deliveriesUnique (store : AdmissionStore) (rows : List ChatInboxRow) : Bool :=
  decide (rows.map fun row => (row.inboxId, row.messageId)).Nodup &&
    rows.all fun row => store.inbox.all fun other => decide ((other.inboxId, other.messageId) ≠ (row.inboxId, row.messageId))

variable (d : Directory)

/-- The next statement of a send, when nothing it needs is locked and it does not throw. -/
def runSend (s : AdmissionSystem Tx) (tx : Tx) (t : SendTx) : Option SendTx :=
  match t.next with
  | .readParticipants =>
    if t.call.integrationSender || (d.agents.lookup t.call.message.senderId).isSome then
      let participants := speakers d s.store.membership
      some { t with next := if t.call.locksChatRow then .lockChat participants else .insertMessage participants }
    else none
  | .lockChat participants =>
    if chatFree s tx .update then some { t with chatLock := some .update, next := .insertMessage participants } else none
  | .insertMessage participants =>
    if chatFree s tx .keyShare && idFree s tx t.call.message.id then
      some { t with chatLock := some (strengthen t.chatLock .keyShare), message := some t.call.message, next := .fanOut participants }
    else none
  | .fanOut participants =>
    let rows := fanout t.call participants
    if deliveriesUnique s.store rows then some { t with inbox := rows, next := .updateChat } else none
  | .updateChat =>
    if chatFree s tx .noKeyUpdate then some { t with chatLock := some (strengthen t.chatLock .noKeyUpdate), next := .done } else none
  | .done => none

/-! ## An admission -/

/-- Whether the database may sort the messages of the chat so: the newest first. -/
def isNewestFirst (messages order : List PostedMessage) : Bool :=
  decide (order.Perm messages) && decide (order.Pairwise fun m m' => m'.createdAt ≤ m.createdAt)

/-- The rows of `backfillSilentContextForNewParticipants`. -/
def backfillRows (crossing : List String) (recent : List PostedMessage) : List ChatInboxRow :=
  (crossing.filterMap d.agents.lookup).flatMap fun agent => recent.map fun m =>
    { inboxId := agent.inboxId, messageId := m.id, notify := false }

/-- `ON CONFLICT DO NOTHING`. -/
def newDeliveries (store : AdmissionStore) (rows : List ChatInboxRow) : List ChatInboxRow :=
  rows.filter fun row => store.inbox.all fun other => decide ((other.inboxId, other.messageId) ≠ (row.inboxId, row.messageId))

/-- The membership an admission sees. -/
def seen (store : AdmissionStore) (t : JoinTx) : Membership := applyWrites store.membership t.membership

/-- The next statement of an admission, when nothing it needs is locked and it does not throw. -/
def runJoin (s : AdmissionSystem Tx) (tx : Tx) (t : JoinTx) (order : List PostedMessage) : Option JoinTx :=
  match t.next with
  | .lockAgents =>
    if agentsFree s tx t.call.participants then some { t with agentLocks := t.call.participants, next := .lockMembership } else none
  | .lockMembership => if membershipFree s tx then some { t with membershipLock := true, next := .lockChat } else none
  | .lockChat => if chatFree s tx .update then some { t with chatLock := some .update, next := .readAgents } else none
  | .readAgents =>
    if (participantRows d t.call.participants t.call.options).isSome then some { t with next := .readExisting } else none
  | .readExisting => some { t with next := .insertSpeakers (seen s.store t) }
  | .insertSpeakers existing =>
    (insertSpeakers t.call.options t.call.participants (seen s.store t)).map fun writes =>
      let crossing := crossingIntoSpeaker t.call.options t.call.participants existing
      { t with
        membership := t.membership ++ writes
        next := if crossing.isEmpty then .insertWatchers else .readRecent crossing }
  | .readRecent crossing =>
    if isNewestFirst s.store.messages order then
      some { t with next := .backfill crossing (order.take precedingContextMaxEntries) }
    else none
  | .backfill crossing recent =>
    some { t with inbox := newDeliveries s.store (backfillRows d crossing recent), next := .insertWatchers }
  | .insertWatchers =>
    some { t with membership := t.membership ++ insertWatchers d (seen s.store t), next := .dropWatchers }
  | .dropWatchers => some { t with membership := t.membership ++ dropWatchers d (seen s.store t), next := .done }
  | .done => none

/-- The agents that an admission makes speakers. -/
def admitted (store : AdmissionStore) (t : JoinTx) : List String :=
  t.membership.filterMap fun w =>
    if w.2 = some .speaker ∧ store.membership.lookup w.1 ≠ some .speaker then some w.1 else none

/-! ## Steps -/

/-- A send that has run no statement. -/
def newSend (call : ChatSend) : SendTx :=
  { call := call, next := .readParticipants, chatLock := none, message := none, inbox := [] }

/-- An admission that has run no statement. -/
def newJoin (call : ChatJoin) : JoinTx :=
  { call := call, next := .lockAgents, agentLocks := [], membershipLock := false, chatLock := none, membership := [], inbox := [] }

/-- The store after a transaction, when it has run all its statements. -/
def commitTx (store : AdmissionStore) : AdmissionTx → Option AdmissionStore
  | .send t =>
    match t.next with
    | .done => some { store with messages := store.messages ++ t.message.toList, inbox := store.inbox ++ t.inbox }
    | _ => none
  | .join t =>
    match t.next with
    | .done => some
      { membership := seen store t
        messages := store.messages
        inbox := store.inbox ++ t.inbox
        precedes := (admitted store t).foldl (fun precedes agentId => precedes.insert agentId store.messages) store.precedes }
    | _ => none

/-- One step. An admission without participants runs no statement. -/
def step (s : AdmissionSystem Tx) : AdmissionOp Tx → Option (AdmissionSystem Tx)
  | .sendMessage tx call => if (s.find tx).isNone then some (s.put s.store tx (some (.send (newSend call)))) else none
  | .addChatParticipants tx call =>
    if (s.find tx).isNone ∧ call.participants ≠ [] then some (s.put s.store tx (some (.join (newJoin call)))) else none
  | .run tx order =>
    (s.find tx).bind fun
      | .send t => (runSend d s tx t).map fun t' => s.put s.store tx (some (.send t'))
      | .join t => (runJoin d s tx t order).map fun t' => s.put s.store tx (some (.join t'))
  | .commit tx => (s.find tx).bind fun t => (commitTx s.store t).map fun store => s.put store tx none
  | .rollback tx => (s.find tx).map fun _ => s.put s.store tx none

end ChatAdmission

end FirstTree
