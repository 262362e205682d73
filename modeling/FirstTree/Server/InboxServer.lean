import FirstTree.Server.InboxDelivery

/-!
# The inbox of the server

The table with the sockets on it. Rows are inserted with any new id, since ids come from a sequence but are committed in any order;
sockets take their steps on the shared table one at a time, and the debug poll claims without a socket.
-/

namespace FirstTree

open Inbox

/-- The table and the sockets of a server. -/
structure InboxServer (Key Socket : Type) where
  table : InboxTable Key
  sockets : Socket → InboxSocket Key

/-- What can happen on a server: a fan-out commits a row, a poll claims rows, a socket takes a step. -/
inductive ServerOp (Key Socket : Type) where
  | insert (id : Nat) (inboxId messageId : Key) (chatId : Option Key) (notify : Bool)
  | poll (inboxId : Key) (limit : Nat) (locked : Nat → Bool) (now : Nat)
  | socket (socket : Socket) (op : SocketOp Key)

namespace InboxServer

variable {Key Socket : Type} [DecidableEq Key] [DecidableEq Socket]

/-- An empty table and new sockets. -/
def init : InboxServer Key Socket :=
  { table := .empty, sockets := fun _ => .init }

/-- A row as the fan-out inserts it. -/
def newEntry (id : Nat) (inboxId messageId : Key) (chatId : Option Key) (notify : Bool) : InboxEntry Key :=
  { id := id, inboxId := inboxId, messageId := messageId, chatId := chatId, status := .pending, notify := notify,
    deliveredAt := none, ackedAt := none }

/-- One step of the server. -/
def step (cfg : InboxDeliveryConfig) (s : InboxServer Key Socket) : ServerOp Key Socket → Option (InboxServer Key Socket)
  | .insert id inboxId messageId chatId notify =>
    if h : id ∉ s.table.rows.map (·.id) then
      some { s with table := s.table.insert (newEntry id inboxId messageId chatId notify) h }
    else none
  | .poll inboxId limit locked now => some { s with table := (pollInboxInner s.table inboxId limit none locked now).2 }
  | .socket k op =>
    (InboxSocket.step cfg s.table (s.sockets k) op).map fun r =>
      { table := r.1, sockets := fun k' => if k' = k then r.2.1 else s.sockets k' }

end InboxServer

end FirstTree
