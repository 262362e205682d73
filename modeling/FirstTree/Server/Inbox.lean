import Mathlib.Data.Finset.Basic
import Mathlib.Data.List.AList
import FirstTree.Lib.Table

/-!
# The inbox service of the server

The `inbox_entries` table and the queries of the inbox service on it: the claims that mark pending rows delivered, the ACK-through
that commits a prefix, the resets of recovery and of a bind, and the counts. Identifiers (inboxes, chats, messages) are of one type
with decidable equality, `Key`. A row that another transaction holds is skipped by a claim; which rows those are is a parameter.
-/

namespace FirstTree

/-- "pending" -> "delivered" -> "acked". -/
inductive InboxEntryStatus where
  | pending
  | delivered
  | acked
  deriving DecidableEq, Repr

/-- A row of `inbox_entries`, without the columns no modelled query reads. -/
structure InboxEntry (Key : Type) where
  id : Nat
  inboxId : Key
  messageId : Key
  chatId : Option Key
  status : InboxEntryStatus
  notify : Bool
  deliveredAt : Option Nat
  ackedAt : Option Nat
  deriving DecidableEq

/-- The `inbox_entries` table, whose primary key is the entry id. -/
abbrev InboxTable (Key : Type) :=
  Table (@InboxEntry.id Key)

namespace Inbox

variable {Key : Type} [DecidableEq Key]

/-- `ORDER BY id ASC`. -/
def byId (a b : InboxEntry Key) : Prop :=
  a.id ≤ b.id

instance : DecidableRel (@byId Key) :=
  fun a b => inferInstanceAs (Decidable (a.id ≤ b.id))

/-- `notify = true AND status = 'pending'` in one inbox. -/
def isPendingNotify (inboxId : Key) (row : InboxEntry Key) : Bool :=
  decide (row.inboxId = inboxId) && decide (row.status = .pending) && row.notify

/-- `SET status = 'delivered', delivered_at = now`. -/
def markDelivered (now : Nat) (row : InboxEntry Key) : InboxEntry Key :=
  { row with status := .delivered, deliveredAt := some now }

/-- `SET status = 'acked', acked_at = now`. -/
def markAcked (now : Nat) (row : InboxEntry Key) : InboxEntry Key :=
  { row with status := .acked, ackedAt := some now }

/-- `SET status = 'pending'`. -/
def markPending (row : InboxEntry Key) : InboxEntry Key :=
  { row with status := .pending }

/-- `UPDATE … WHERE id IN (targets) RETURNING`, with the returned rows sorted by id for delivery. -/
def claim (t : InboxTable Key) (targets : List (InboxEntry Key)) (now : Nat) : List (InboxEntry Key) × InboxTable Key :=
  ((targets.map (markDelivered now)).insertionSort byId,
    t.updateWhere (fun row => decide (row.id ∈ targets.map (·.id))) (markDelivered now) fun _ => rfl)

/-- Claim the oldest pending notify rows of an inbox, of one chat when it is given. -/
def pollInboxInner (t : InboxTable Key) (inboxId : Key) (limit : Nat) (chatId : Option Key) (locked : Nat → Bool) (now : Nat) :
    List (InboxEntry Key) × InboxTable Key :=
  let inScope := fun row =>
    isPendingNotify inboxId row && !locked row.id &&
      (match chatId with
        | none => true
        | some chatId => decide (row.chatId = some chatId))
  claim t ((t.selectBy byId inScope).take limit) now

/-- The chat-scoped claim after a same-socket recovery. -/
def claimBacklogForPushForChat (t : InboxTable Key) (inboxId chatId : Key) (limit : Nat) (locked : Nat → Bool) (now : Nat) :
    List (InboxEntry Key) × InboxTable Key :=
  pollInboxInner t inboxId limit (some chatId) locked now

/-- `row_number() OVER (PARTITION BY chat_id ORDER BY id)` among the pending notify rows of the inbox. -/
def chatRank (t : InboxTable Key) (inboxId : Key) (row : InboxEntry Key) : Nat :=
  (t.select fun r => isPendingNotify inboxId r && decide (r.chatId = row.chatId) && decide (r.id ≤ row.id)).length

/-- The chat-local rank first, then the id. -/
def byRankThenId (t : InboxTable Key) (inboxId : Key) (a b : InboxEntry Key) : Prop :=
  chatRank t inboxId a < chatRank t inboxId b ∨ (chatRank t inboxId a = chatRank t inboxId b ∧ a.id ≤ b.id)

instance (t : InboxTable Key) (inboxId : Key) : DecidableRel (byRankThenId t inboxId) :=
  fun a b => inferInstanceAs (Decidable (_ ∨ _ ∧ a.id ≤ b.id))

/-- What remains of each chat's window, for the chats whose window is not the default one. -/
abbrev ChatBudgets (Key : Type) :=
  AList fun _ : Option Key => Nat

/-- `COALESCE(chat_budget.remaining, defaultPerChatLimit)`. -/
def remainingFor (chatBudgets : ChatBudgets Key) (defaultPerChatLimit : Nat) (chatId : Option Key) : Nat :=
  (chatBudgets.lookup chatId).getD defaultPerChatLimit

/-- The rows a fair claim may take, before the locked ones are skipped. -/
def fairEligible (t : InboxTable Key) (inboxId : Key) (limit defaultPerChatLimit : Nat) (chatBudgets : ChatBudgets Key) :
    List (InboxEntry Key) :=
  (t.selectBy (byRankThenId t inboxId) fun row =>
    isPendingNotify inboxId row &&
      decide (chatRank t inboxId row ≤ remainingFor chatBudgets defaultPerChatLimit row.chatId)).take limit

/-- The fair claim of normal drains: it chooses across chats by chat-local rank. -/
def claimBacklogForPushFair (t : InboxTable Key) (inboxId : Key) (limit defaultPerChatLimit : Nat) (chatBudgets : ChatBudgets Key)
    (locked : Nat → Bool) (now : Nat) : List (InboxEntry Key) × InboxTable Key :=
  if limit = 0 ∨ defaultPerChatLimit = 0 then ([], t)
  else
    let targets := (fairEligible t inboxId limit defaultPerChatLimit chatBudgets).filter fun row => !locked row.id
    if targets = [] then ([], t) else claim t targets now

/-- Why an ACK is refused. -/
inductive AckRejectReason where
  | not_found_or_not_bound
  | non_notify
  | prefix_gap
  deriving DecidableEq, Repr

/-- How an ACK was accepted. -/
inductive AckDisposition where
  | already_acked
  | accepted_from_pending
  | acked
  deriving DecidableEq, Repr

/-- The answer of an ACK-through. -/
inductive AckEntryResult (Key : Type) where
  | rejected (reason : AckRejectReason)
  | ok (throughEntry : InboxEntry Key) (disposition : AckDisposition) (ackedEntryIds : List Nat)
  deriving DecidableEq

/-- The same inbox and chat as the entry. -/
def samePartition (entry row : InboxEntry Key) : Bool :=
  decide (row.inboxId = entry.inboxId) && decide (row.chatId = entry.chatId)

/-- The notify rows of the entry's inbox and chat up to its id. -/
def prefixRows (t : InboxTable Key) (entry : InboxEntry Key) : List (InboxEntry Key) :=
  t.selectBy byId fun row => samePartition entry row && row.notify && decide (row.id ≤ entry.id)

/-- A row that was delivered and reset: pending, with a delivery date. -/
def isResetDeliveredRow (row : InboxEntry Key) : Bool :=
  decide (row.status = .pending) && row.deliveredAt.isSome

/-- The ids an ACK through the entry would commit: the delivered rows of the prefix, then the reset ones. -/
def committableIds (t : InboxTable Key) (entry : InboxEntry Key) : List Nat :=
  ((prefixRows t entry).filter fun row => decide (row.status = .delivered)).map (·.id) ++
    ((prefixRows t entry).filter isResetDeliveredRow).map (·.id)

/-- The two updates of an accepted ACK: the committable rows, and the pending silent rows of the partition up to the entry. -/
def commitPrefix (t : InboxTable Key) (entry : InboxEntry Key) (ids : List Nat) (now : Nat) : InboxTable Key :=
  (t.updateWhere (fun row => decide (row.id ∈ ids) && decide (row.status = .delivered ∨ row.status = .pending)) (markAcked now)
    fun _ => rfl).updateWhere
      (fun row => samePartition entry row && decide (row.status = .pending) && !row.notify && decide (row.id ≤ entry.id))
      (markAcked now) fun _ => rfl

/-- Commit progress through an entry id, scoped to the inboxes the socket has bound. -/
def ackThroughEntryIdForBoundAgents (t : InboxTable Key) (entryId : Nat) (inboxIds : List Key)
    (currentSocketDeliveredEntryIds : Finset Nat) (now : Nat) : AckEntryResult Key × InboxTable Key :=
  match t.rows.find? fun row => decide (row.id = entryId) && decide (row.inboxId ∈ inboxIds) with
  | none => (.rejected .not_found_or_not_bound, t)
  | some entry =>
    if !entry.notify then (.rejected .non_notify, t)
    else if (prefixRows t entry).any fun row => row.status ≠ .acked && row.status ≠ .delivered && !isResetDeliveredRow row then
      (.rejected .prefix_gap, t)
    else
      let ids := committableIds t entry
      if ids = [] then (.ok entry .already_acked [], t)
      else if ids.any fun id => id ∉ currentSocketDeliveredEntryIds then (.rejected .not_found_or_not_bound, t)
      else
        let updated := (t.select fun row => decide (row.id ∈ ids) && decide (row.status = .delivered ∨ row.status = .pending)).map
          (markAcked now)
        let updatedThroughEntry := (updated.find? fun row => row.id = entryId).getD entry
        let disposition := if (prefixRows t entry).any isResetDeliveredRow then .accepted_from_pending else .acked
        (.ok updatedThroughEntry disposition (updated.map (·.id)), commitPrefix t entry ids now)

/-- `status IN ('pending', 'delivered') AND notify = true` in an inbox, of one chat when it is given. -/
def isUnackedInScope (inboxId : Key) (chatId : Option Key) (row : InboxEntry Key) : Bool :=
  decide (row.inboxId = inboxId) && decide (row.status = .pending ∨ row.status = .delivered) && row.notify &&
    (match chatId with
      | none => true
      | some chatId => decide (row.chatId = some chatId))

/-- How many notify rows of the scope are not acked. -/
def countUnackedForScope (t : InboxTable Key) (inboxId : Key) (chatId : Option Key) : Nat :=
  (t.select (isUnackedInScope inboxId chatId)).length

/-- Reset the delivered notify rows of one inbox, of one chat when it is given, and answer their ids. -/
def recoverUnackedForScope (t : InboxTable Key) (inboxId : Key) (chatId : Option Key) : List Nat × InboxTable Key :=
  let inScope := fun row => isUnackedInScope inboxId chatId row && decide (row.status = .delivered)
  ((t.select inScope).map (·.id), t.updateWhere inScope markPending fun _ => rfl)

/-- Reset every delivered row of the inboxes, on a bind. -/
def resetDeliveredForInboxes (t : InboxTable Key) (inboxIds : List Key) : InboxTable Key :=
  t.updateWhere (fun row => decide (row.inboxId ∈ inboxIds) && decide (row.status = .delivered)) markPending fun _ => rfl

end Inbox

end FirstTree
