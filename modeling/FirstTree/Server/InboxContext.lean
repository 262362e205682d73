import FirstTree.Lib.Transactions
import FirstTree.Server.InboxServer

/-!
# The silent context of a claim

Every way to claim notify rows bundles each claimed row, the trigger, with the silent rows before it. A claim is a transaction of
several statements: the one that marks the triggers delivered, then for each chat one that looks for the trigger before the first
claimed one, then for each trigger the one that selects its silent rows. The statements of a claim read what is committed when they
run, and other claims, resets, ACKs and inserts commit in between. Rows that an open claim holds are skipped by another claim, and
waited for by an update. Times are in microseconds.
-/

namespace FirstTree

open Inbox Transactions

namespace Inbox

/-- `PRECEDING_CONTEXT_MAX_ENTRIES`. -/
def precedingContextMaxEntries : Nat := 50

/-- `PRECEDING_CONTEXT_WINDOW_SECONDS`, in microseconds. -/
def precedingContextWindow : Nat := 24 * 60 * 60 * 1000000

/-- What a claim reads of a message: its date, whether it is the first-chat bootstrap, and the agent it continues the orientation
of. -/
structure ContextMessage (Key : Type) where
  createdAt : Nat
  orientationBootstrap : Bool
  continuationTarget : Option Key
  deriving DecidableEq

/-- The rows of other tables a claim reads: the messages, and the agent that owns an inbox. -/
structure ContextTables (Key : Type) where
  messages : Key → ContextMessage Key
  inboxAgent : Key → Key

/-- The `created_at` column of the entries, by entry id. -/
abbrev CreatedAt := Nat → Nat

/-- A timestamp read into a `Date`, which keeps milliseconds. -/
def dateOf (timestamp : Nat) : Nat := timestamp / 1000 * 1000

variable {Key : Type} [DecidableEq Key]

/-! ## The ways to claim -/

/-- The exact-message claim: the same-chat pending prefix through the first pending row of a message. -/
def claimAndBuildForPush (t : InboxTable Key) (inboxId messageId : Key) (now : Nat) : List (InboxEntry Key) × InboxTable Key :=
  match (t.selectBy byId fun row => isPendingNotify inboxId row && decide (row.messageId = messageId)).head? with
  | none => ([], t)
  | some target =>
    claim t (t.selectBy byId fun row =>
      isPendingNotify inboxId row && decide (row.chatId = target.chatId) && decide (row.id ≤ target.id)) now

/-- The ways to claim rows of an inbox. -/
inductive ClaimRequest (Key : Type) where
  | poll (limit : Nat)
  | chat (chatId : Key) (limit : Nat)
  | fair (limit defaultPerChatLimit : Nat) (chatBudgets : ChatBudgets Key)
  | message (messageId : Key)

/-- The rows a claim marks delivered, in the order of their ids. -/
def ClaimRequest.rows (t : InboxTable Key) (inboxId : Key) (locked : Nat → Bool) (now : Nat) :
    ClaimRequest Key → List (InboxEntry Key)
  | .poll limit => (pollInboxInner t inboxId limit none locked now).1
  | .chat chatId limit => (claimBacklogForPushForChat t inboxId chatId limit locked now).1
  | .fair limit defaultPerChatLimit chatBudgets =>
    (claimBacklogForPushFair t inboxId limit defaultPerChatLimit chatBudgets locked now).1
  | .message messageId => (claimAndBuildForPush t inboxId messageId now).1

/-! ## The silent rows of a trigger -/

/-- A notify row of an inbox and a chat, with an id below a bound. -/
def isNotifyBelow (inboxId chatId : Key) (bound : Nat) (row : InboxEntry Key) : Bool :=
  decide (row.inboxId = inboxId) && decide (row.chatId = some chatId) && row.notify && decide (row.id < bound)

/-- `previousNotify`: the greatest id of a notify row of the chat below a trigger. -/
def previousNotify (t : InboxTable Key) (inboxId chatId : Key) (triggerId : Nat) : Option Nat :=
  ((t.select (isNotifyBelow inboxId chatId triggerId)).map (·.id)).max?

/-- The trigger is the turn that continues the first-chat orientation of the inbox's agent. -/
def isOrientationContinuation (tables : ContextTables Key) (inboxId : Key) (trigger : InboxEntry Key) : Bool :=
  decide ((tables.messages trigger.messageId).continuationTarget = some (tables.inboxAgent inboxId))

/-- `contextWindow`: a recent row that is not the bootstrap, or the bootstrap when the trigger continues it. -/
def contextWindow (tables : ContextTables Key) (createdAt : CreatedAt) (inboxId : Key) (trigger row : InboxEntry Key) : Bool :=
  (decide (dateOf (createdAt trigger.id) < createdAt row.id + precedingContextWindow) &&
      !(tables.messages row.messageId).orientationBootstrap) ||
    (isOrientationContinuation tables inboxId trigger && (tables.messages row.messageId).orientationBootstrap)

/-- A pending silent row of the chat before the trigger and after the cursor, in the context window. -/
def inPrecedingWindow (tables : ContextTables Key) (createdAt : CreatedAt) (inboxId chatId : Key) (trigger : InboxEntry Key)
    (previousNotifyId : Option Nat) (row : InboxEntry Key) : Bool :=
  decide (row.inboxId = inboxId) && decide (row.chatId = some chatId) && decide (row.status = .pending) && !row.notify &&
    decide (row.id < trigger.id) && previousNotifyId.all (fun previous => decide (previous < row.id)) &&
      contextWindow tables createdAt inboxId trigger row

/-- `ORDER BY messages.created_at DESC`. -/
def newestFirst (tables : ContextTables Key) (a b : InboxEntry Key) : Prop :=
  (tables.messages b.messageId).createdAt ≤ (tables.messages a.messageId).createdAt

instance (tables : ContextTables Key) : DecidableRel (newestFirst tables) :=
  fun _ _ => inferInstanceAs (Decidable (_ ≤ _))

/-- The rows of a window that are not skipped, the newest `PRECEDING_CONTEXT_MAX_ENTRIES` of them, oldest first. -/
def precedingRows (tables : ContextTables Key) (window : List (InboxEntry Key)) (skipped : List Nat) : List (InboxEntry Key) :=
  (((window.filter fun row => decide (row.id ∉ skipped)).insertionSort (newestFirst tables)).take precedingContextMaxEntries).reverse

/-! ## The statements of a claim -/

/-- A statement of `collectPrecedingContext`. -/
inductive ContextQuery (Key : Type) where
  | previousNotify (chatId : Key) (firstTriggerId : Nat)
  | preceding (chatId : Key) (trigger : InboxEntry Key)

/-- The statements for the triggers of one chat. -/
def chatQueries (chatId : Key) (chatTriggers : List (InboxEntry Key)) : List (ContextQuery Key) :=
  match chatTriggers with
  | [] => []
  | firstTrigger :: _ => .previousNotify chatId firstTrigger.id :: chatTriggers.map (.preceding chatId)

/-- `collectPrecedingContext`: the triggers by chat, each chat's sorted by id. Rows without a chat have no context. -/
def contextQueries (triggers : List (InboxEntry Key)) : List (ContextQuery Key) :=
  (triggers.filterMap (·.chatId)).eraseDups.flatMap fun chatId =>
    chatQueries chatId ((triggers.filter fun trigger => decide (trigger.chatId = some chatId)).insertionSort byId)

/-- A trigger with the silent rows it was given, the cursor and the table of the statement that selected them, and the ids of the rows
that statement skipped. -/
structure Bundle (Key : Type) where
  inboxId : Key
  chatId : Key
  trigger : InboxEntry Key
  preceding : List (InboxEntry Key)
  previousNotifyId : Option Nat
  asOf : InboxTable Key
  skipped : List Nat

/-- The silent rows a bundle is chosen from. -/
def Bundle.window (tables : ContextTables Key) (createdAt : CreatedAt) (b : Bundle Key) : List (InboxEntry Key) :=
  b.asOf.select (inPrecedingWindow tables createdAt b.inboxId b.chatId b.trigger b.previousNotifyId)

/-- A claim between its statements: what it claimed, the statements it has yet to run, its cursor, and the bundles it has made. -/
structure ClaimTx (Key : Type) where
  inboxId : Key
  claimed : List (InboxEntry Key)
  now : Nat
  todo : List (ContextQuery Key)
  previousNotifyId : Option Nat
  bundles : List (Bundle Key)

/-- The rows a claim holds until it ends: its triggers, and the silent rows it has selected. -/
def ClaimTx.heldIds (tx : ClaimTx Key) : List Nat :=
  tx.claimed.map (·.id) ++ tx.bundles.flatMap fun b => b.preceding.map (·.id)

/-- The `inbox_entries` table with its `created_at` column, and the bundles the committed claims have returned. -/
structure ContextStore (Key : Type) where
  table : InboxTable Key
  createdAt : CreatedAt
  delivered : List (Bundle Key)

/-- The inbox with the claims that are open on it. -/
abbrev ContextSystem (Key Tx : Type) := System (ContextStore Key) Tx (ClaimTx Key)

end Inbox

/-- What can happen on the inbox: a fan-out or a backfill commits a row; a claim takes its rows, runs a statement, commits or aborts;
delivered rows are reset, on a recovery or a bind; a client commits a prefix; the sweep deletes silent rows. `locked` says which rows
transactions other than claims hold. -/
inductive ContextOp (Key Tx : Type) where
  | insert (id : Nat) (inboxId messageId : Key) (chatId : Option Key) (notify : Bool) (createdAt : Nat)
  | claim (tx : Tx) (inboxId : Key) (request : ClaimRequest Key) (locked : Nat → Bool) (now : Nat)
  | query (tx : Tx) (locked : Nat → Bool)
  | commit (tx : Tx)
  | abort (tx : Tx)
  | recover (inboxId : Key) (chatId : Option Key)
  | resetDelivered (inboxIds : List Key)
  | ack (entryId : Nat) (inboxIds : List Key) (currentSocketDeliveredEntryIds : Finset Nat) (now : Nat)
  | pruneAcked
  | pruneStale (before : Nat)

namespace InboxContext

variable {Key Tx : Type} [DecidableEq Key] [DecidableEq Tx]

/-- An empty inbox. -/
def init : ContextSystem Key Tx :=
  .idle { table := .empty, createdAt := fun _ => 0, delivered := [] }

/-- An open claim other than `tx` holds the row. -/
def heldByOther (s : ContextSystem Key Tx) (tx : Tx) (id : Nat) : Bool :=
  (s.others tx).any fun c => decide (id ∈ c.heldIds)

/-- An open claim holds the row. -/
def held (s : ContextSystem Key Tx) (id : Nat) : Bool :=
  s.active.entries.any fun e => decide (id ∈ e.2.heldIds)

/-- The rows a claim statement takes: it skips what others hold, but the exact-message claim waits for its rows. -/
def claimRows (s : ContextSystem Key Tx) (tx : Tx) (inboxId : Key) (request : ClaimRequest Key) (locked : Nat → Bool) (now : Nat) :
    List (InboxEntry Key) :=
  request.rows s.store.table inboxId (fun id => locked id || heldByOther s tx id) now

/-- The bundle the statement for a trigger makes, from the cursor of its claim. -/
def bundleFor (tables : ContextTables Key) (s : ContextSystem Key Tx) (tx : Tx) (locked : Nat → Bool) (c : ClaimTx Key) (chatId : Key)
    (trigger : InboxEntry Key) : Bundle Key :=
  let window := s.store.table.select
    (inPrecedingWindow tables s.store.createdAt c.inboxId chatId trigger c.previousNotifyId)
  let skipped := (window.map (·.id)).filter fun id => locked id || heldByOther s tx id
  { inboxId := c.inboxId, chatId := chatId, trigger := trigger, preceding := precedingRows tables window skipped,
    previousNotifyId := c.previousNotifyId, asOf := s.store.table, skipped := skipped }

/-- One statement of an open claim. -/
def runQuery (tables : ContextTables Key) (s : ContextSystem Key Tx) (tx : Tx) (locked : Nat → Bool) (c : ClaimTx Key) :
    ContextQuery Key → ClaimTx Key
  | .previousNotify chatId firstTriggerId =>
    { c with previousNotifyId := previousNotify s.store.table c.inboxId chatId firstTriggerId }
  | .preceding chatId trigger =>
    { c with previousNotifyId := some trigger.id, bundles := c.bundles ++ [bundleFor tables s tx locked c chatId trigger] }

/-- The row an ACK names, and the rows of its prefix, silent ones included. -/
def ackLocks (t : InboxTable Key) (entryId : Nat) (inboxIds : List Key) (row : InboxEntry Key) : Bool :=
  match t.rows.find? fun row => decide (row.id = entryId) && decide (row.inboxId ∈ inboxIds) with
  | none => false
  | some entry => samePartition entry row && decide (row.id ≤ entryId)

/-- An update of the rows that meet a condition, which waits while an open claim holds one of them. -/
def whenUnheld (s : ContextSystem Key Tx) (p : InboxEntry Key → Bool) (table : InboxTable Key) : Option (ContextSystem Key Tx) :=
  if ∀ row ∈ s.store.table.rows, p row = true → held s row.id = false then some { s with store := { s.store with table := table } }
  else none

/-- A silent row that is acked. -/
def isAckedSilent (row : InboxEntry Key) : Bool := !row.notify && decide (row.status = .acked)

/-- A silent row that is pending since before a date. -/
def isStaleSilent (createdAt : CreatedAt) (before : Nat) (row : InboxEntry Key) : Bool :=
  !row.notify && decide (row.status = .pending) && decide (createdAt row.id < before)

/-- One step of the inbox. -/
def step (tables : ContextTables Key) (s : ContextSystem Key Tx) : ContextOp Key Tx → Option (ContextSystem Key Tx)
  | .insert id inboxId messageId chatId notify createdAt =>
    if h : id ∉ s.store.table.rows.map (·.id) then
      some { s with
        store := { s.store with
          table := s.store.table.insert (InboxServer.newEntry id inboxId messageId chatId notify) h
          createdAt := Function.update s.store.createdAt id createdAt } }
    else none
  | .claim tx inboxId request locked now =>
    let claimed := claimRows s tx inboxId request locked now
    if s.find tx = none ∧ ∀ e ∈ claimed, heldByOther s tx e.id = false then
      some (s.put s.store tx (some
        { inboxId := inboxId, claimed := claimed, now := now, todo := contextQueries claimed, previousNotifyId := none,
          bundles := [] }))
    else none
  | .query tx locked =>
    match s.find tx with
    | some c =>
      match c.todo with
      | [] => none
      | q :: rest => some (s.put s.store tx (some { runQuery tables s tx locked c q with todo := rest }))
    | none => none
  | .commit tx =>
    match s.find tx with
    | some c =>
      if c.todo.isEmpty then
        some (s.put
          { s.store with
            table := s.store.table.updateWhere (fun row => decide (row.id ∈ c.claimed.map (·.id))) (markDelivered c.now) fun _ => rfl
            delivered := s.store.delivered ++ c.bundles } tx none)
      else none
    | none => none
  | .abort tx => (s.find tx).map fun _ => s.put s.store tx none
  | .recover inboxId chatId =>
    whenUnheld s (fun row => isUnackedInScope inboxId chatId row && decide (row.status = .delivered))
      (recoverUnackedForScope s.store.table inboxId chatId).2
  | .resetDelivered inboxIds =>
    whenUnheld s (fun row => decide (row.inboxId ∈ inboxIds) && decide (row.status = .delivered))
      (resetDeliveredForInboxes s.store.table inboxIds)
  | .ack entryId inboxIds currentSocketDeliveredEntryIds now =>
    whenUnheld s (ackLocks s.store.table entryId inboxIds)
      (ackThroughEntryIdForBoundAgents s.store.table entryId inboxIds currentSocketDeliveredEntryIds now).2
  | .pruneAcked => whenUnheld s isAckedSilent (s.store.table.deleteWhere isAckedSilent)
  | .pruneStale before =>
    whenUnheld s (isStaleSilent s.store.createdAt before) (s.store.table.deleteWhere (isStaleSilent s.store.createdAt before))

end InboxContext

end FirstTree
