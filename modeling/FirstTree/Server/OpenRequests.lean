import FirstTree.Lib.Transactions
import FirstTree.Server.MessagePreflight

/-!
# The open questions of a chat

The messages of one chat and the `open_request_count` of its `chat_user_state` rows. A send inserts its row, counts a request for its
target, and uncounts the request it resolves; an edit rewrites a row. A statement that throws leaves its transaction to roll back. The
other columns of the rows, and the answers of the statements that read other tables, are left out or left open.
-/

namespace FirstTree

open Transactions MessagePreflight

/-- A row of `messages`. -/
structure MessageRow where
  id : String
  senderId : String
  format : MessageFormat
  content : Json
  metadata : Metadata

/-- A send whose row is about to be inserted: the row, `mergedMentions`, the participants and the mentions the caller declared. -/
structure PreparedSend where
  row : MessageRow
  mergedMentions : List String
  participants : List SendIntentParticipant
  declaredMentions : List String

/-- The arguments of `editMessage`, with the type of the sender's agent and the time of the edit. -/
structure MessageEdit where
  messageId : String
  senderId : String
  format : Option MessageFormat
  content : Option Json
  senderType : Option SenderType
  editedAt : String

/-- The statement a transaction runs next. -/
inductive RequestStatement where
  | insertMessage (send : PreparedSend)
  | openRequest (target : String) (send : PreparedSend)
  | lockParent (resolution : RequestResolution) (send : PreparedSend)
  | scanPriors (request : String) (target : String) (asker : String)
  | closeRequest (target : String)
  | lockMessage (edit : MessageEdit)
  | updateMessage (edit : MessageEdit)
  | done

/-- The committed messages of the chat, in the order of their commits, and the counters by agent. -/
structure RequestStore where
  messages : List MessageRow
  openRequestCount : AList fun _ : String => Nat

/-- An open transaction: its next statement, its uncommitted writes and the rows it holds. -/
structure RequestTx where
  next : RequestStatement
  inserted : Option MessageRow
  updated : Option MessageRow
  counts : AList fun _ : String => Nat
  lockedMessages : List String
  lockedStates : List String

/-- The chat with the transactions open on it. -/
abbrev RequestSystem (Tx : Type) := System RequestStore Tx RequestTx

/-- What can happen: a send or an edit begins, and an open transaction runs its next statement, commits or rolls back. -/
inductive RequestOp (Tx : Type) where
  | sendMessage (tx : Tx) (messageId : String) (input : SendIntent) (reads : SendReads)
  | editMessage (tx : Tx) (edit : MessageEdit)
  | run (tx : Tx)
  | commit (tx : Tx)
  | rollback (tx : Tx)

namespace OpenRequests

/-! ## What the rows say -/

/-- `metadata -> 'resolves' ->> 'request'`, where the kind is one of a resolution. -/
def resolvedRequest (text : JsonText) (metadata : Metadata) : Option String := do
  let resolves ← metadata.lookup "resolves"
  let kind ← (resolves.field? "kind").bind text.read
  guard (kind = "answered" ∨ kind = "closed")
  (resolves.field? "request").bind text.read

/-- The one mention of an array of one string. -/
def onlyMention : Option Json → Option String
  | some (.arr [.str target]) => some target
  | _ => none

/-- The target of a tracked request. -/
def requestTarget (row : MessageRow) : Option String :=
  if row.format = .request then onlyMention (row.metadata.lookup "mentions") else none

/-- `metadata -> 'mentions' @> jsonb_build_array(viewer)`. -/
def mentionsViewer (row : MessageRow) (viewer : String) : Bool :=
  match row.metadata.lookup "mentions" with
  | some (.arr items) => items.any fun item => decide (item.string? = some viewer)
  | _ => false

/-- `listOpenRequestsForViewer`, without the order of its rows. -/
def listOpenRequestsForViewer (text : JsonText) (messages : List MessageRow) (viewer : String) : List MessageRow :=
  messages.filter fun row => decide (row.format = .request) && mentionsViewer row viewer &&
    ! messages.any fun resolver => decide (resolvedRequest text resolver.metadata = some row.id) &&
      (decide (resolver.senderId = row.senderId) || decide (resolver.senderId = viewer))

/-- The counter of an agent, zero when its row is missing. -/
def openRequestCountOf (store : RequestStore) (agentId : String) : Nat := (store.openRequestCount.lookup agentId).getD 0

/-! ## A send -/

variable (rd : MessageReaders) (text : JsonText)

/-- What a send stores, once its checks have passed. -/
def prepareSend (messageId : String) (input : SendIntent) (reads : SendReads) : Except SendError PreparedSend := do
  let prepared ← preflightMessageSendIntent rd input
  let metadata ← storedMetadata rd reads input
  pure
    { row := { id := messageId, senderId := input.senderId, format := input.data.format, content := prepared.content, metadata }
      mergedMentions := prepared.mentionedAgentIds
      participants := input.participants
      declaredMentions := Json.strings ((input.data.metadata.getD ∅).lookup "mentions") }

/-- The statement after the counter of a request, or instead of it. -/
def afterRequest (send : PreparedSend) : RequestStatement :=
  match resolutionOf send.row.metadata with
  | some resolution => .lockParent resolution send
  | none => .done

/-- The statement after the insert. -/
def afterInsert (send : PreparedSend) : RequestStatement :=
  match send.mergedMentions with
  | target :: _ => if send.row.format = .request ∧ target ≠ "" then .openRequest target send else afterRequest send
  | [] => afterRequest send

/-- A message of the chat as a transaction sees it. -/
def findMessage (store : RequestStore) (t : RequestTx) (id : String) : Option MessageRow :=
  (store.messages ++ t.inserted.toList).find? fun row => decide (row.id = id)

/-- A close is routed to an active asker, and declares one who is gone. -/
def checkClose (send : PreparedSend) (askerId : String) : Except SendError Unit :=
  match send.participants.find? fun p => decide (p.agentId = askerId ∧ p.status = .active) with
  | some activeAsker => reject (activeAsker.agentId ∉ send.mergedMentions)
      (badRequest "Closing a request from an active asker must route the resolution to that asker.")
  | none => reject (askerId ∉ send.declaredMentions)
      (badRequest "Closing a request must declare the original asker before routing can degrade.")

/-- The target of the request a message resolves, once it may. -/
def resolutionTarget (send : PreparedSend) (resolution : RequestResolution) (parent : MessageRow) : Except SendError String :=
  match requestTarget parent with
  | none => .error (badRequest ("Cannot resolve \"" ++ resolution.request ++
      "\": it is not a tracked request. Only a question raised with `chat ask` can be answered."))
  | some target => do
    reject (send.row.senderId ≠ target) (.forbidden
      "Only the question's target may resolve it — the human answers in the web UI.")
    if resolution.kind = .closed then checkClose send parent.senderId
    pure target

/-- `priors`: the other messages that resolve a request, by its target or its asker. -/
def priors (store : RequestStore) (t : RequestTx) (request target asker : String) : List MessageRow :=
  (store.messages ++ t.inserted.toList).filter fun row => decide (t.inserted.map (·.id) ≠ some row.id) &&
    decide (resolvedRequest text row.metadata = some request) && (decide (row.senderId = target) || decide (row.senderId = asker))

/-- The counter of an agent as a transaction sees it. -/
def visibleCount (store : RequestStore) (t : RequestTx) (agentId : String) : Option Nat :=
  (t.counts.lookup agentId).or (store.openRequestCount.lookup agentId)

/-- A transaction that has written a counter. -/
def writeCount (t : RequestTx) (agentId : String) (count : Nat) (next : RequestStatement) : RequestTx :=
  { t with counts := t.counts.insert agentId count, lockedStates := agentId :: t.lockedStates, next := next }

/-! ## An edit -/

/-- The content after an edit, normalised as that of a send. -/
def editedContent (edit : MessageEdit) (row : MessageRow) : Except SendError Json :=
  match edit.content, edit.senderType with
  | none, _ => .ok row.content
  | some _, none => .error (.notFound ("Sender agent \"" ++ edit.senderId ++ "\" not found"))
  | some content, some senderType => normalizeNonHumanTextContent rd senderType false content

/-- The row after an edit, once its checks have passed. -/
def editedRow (edit : MessageEdit) (row : MessageRow) : Except SendError MessageRow := do
  reject (row.senderId ≠ edit.senderId) (.forbidden "Only the sender can edit a message")
  reject ((row.metadata.lookup "feishu").any fun raw => (rd.feishuMessageMetadata raw).isSome)
    (.forbidden "Feishu message history cannot be edited")
  reject (row.metadata.keys.any isContextReviewKey) (.forbidden "Context Reviewer run history cannot be edited")
  reject (row.metadata.keys.any isGithubTaskKey) (.forbidden "GitHub task reply run history cannot be edited")
  reject (edit.format.any fun format => decide (format ≠ row.format ∧ (format = .request ∨ row.format = .request)))
    (badRequest "Cannot change a message's format to or from 'request'.")
  let content ← editedContent rd edit row
  let format := edit.format.getD row.format
  if edit.content.isSome || edit.format.isSome then
    validateMessageContent rd format content (hasAttachmentRefs rd row.metadata)
  pure { row with format := format, content := content, metadata := row.metadata.insert "editedAt" (.str edit.editedAt) }

/-! ## Steps -/

variable {Tx : Type} [DecidableEq Tx]

/-- A transaction that has run no statement. -/
def newTx (next : RequestStatement) : RequestTx :=
  { next := next, inserted := none, updated := none, counts := ∅, lockedMessages := [], lockedStates := [] }

/-- No committed message, and no other transaction's, has the id. -/
def idFree (s : RequestSystem Tx) (tx : Tx) (id : String) : Bool :=
  (s.store.messages.all fun row => decide (row.id ≠ id)) && (s.others tx).all fun t => decide (t.inserted.map (·.id) ≠ some id)

/-- No other transaction holds the message. -/
def messageFree (s : RequestSystem Tx) (tx : Tx) (id : String) : Bool :=
  (s.others tx).all fun t => decide (id ∉ t.lockedMessages)

/-- No other transaction holds the counter. -/
def stateFree (s : RequestSystem Tx) (tx : Tx) (agentId : String) : Bool :=
  (s.others tx).all fun t => decide (agentId ∉ t.lockedStates)

/-- The next statement of an open transaction, when nothing it needs is locked and it does not throw. -/
def runStatement (s : RequestSystem Tx) (tx : Tx) (t : RequestTx) : Option RequestTx :=
  match t.next with
  | .insertMessage send =>
    if idFree s tx send.row.id then some { t with inserted := some send.row, next := afterInsert send } else none
  | .openRequest target send =>
    if stateFree s tx target then some (writeCount t target ((visibleCount s.store t target).getD 0 + 1) (afterRequest send))
      else none
  | .lockParent resolution send =>
    (findMessage s.store t resolution.request).bind fun parent =>
      match messageFree s tx parent.id, resolutionTarget send resolution parent with
      | true, .ok target => some { t with
          lockedMessages := parent.id :: t.lockedMessages
          next := .scanPriors resolution.request target parent.senderId }
      | _, _ => none
  | .scanPriors request target asker =>
    some { t with next := if (priors text s.store t request target asker).isEmpty then .closeRequest target else .done }
  | .closeRequest target =>
    match visibleCount s.store t target with
    | none => some { t with next := .done }
    -- GREATEST(0, open_request_count - 1) is the subtraction of naturals.
    | some count => if stateFree s tx target then some (writeCount t target (count - 1) .done) else none
  | .lockMessage edit =>
    (findMessage s.store t edit.messageId).bind fun row =>
      if messageFree s tx row.id then some { t with lockedMessages := row.id :: t.lockedMessages, next := .updateMessage edit }
        else none
  | .updateMessage edit =>
    (findMessage s.store t edit.messageId).bind fun row =>
      match editedRow rd edit row with
      | .ok updated => some { t with updated := some updated, next := .done }
      | .error _ => none
  | .done => none

/-- The store after a commit. -/
def commitStore (store : RequestStore) (t : RequestTx) : RequestStore :=
  { messages :=
      (store.messages.map fun row => (t.updated.filter fun updated => decide (updated.id = row.id)).getD row) ++ t.inserted.toList
    openRequestCount := t.counts ∪ store.openRequestCount }

/-- One step. -/
def step (s : RequestSystem Tx) : RequestOp Tx → Option (RequestSystem Tx)
  | .sendMessage tx messageId input reads =>
    match s.find tx, prepareSend rd messageId input reads with
    | none, .ok send => some (s.put s.store tx (some (newTx (.insertMessage send))))
    | _, _ => none
  | .editMessage tx edit => if (s.find tx).isNone then some (s.put s.store tx (some (newTx (.lockMessage edit)))) else none
  | .run tx => (s.find tx).bind fun t => (runStatement rd text s tx t).map fun t' => s.put s.store tx (some t')
  | .commit tx =>
    (s.find tx).bind fun t =>
      match t.next with
      | .done => some (s.put (commitStore s.store t) tx none)
      | _ => none
  | .rollback tx => (s.find tx).map fun _ => s.put s.store tx none

/-- An empty chat. -/
def init : RequestSystem Tx := .idle { messages := [], openRequestCount := ∅ }

end OpenRequests

end FirstTree
