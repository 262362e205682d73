import Mathlib.Data.Finset.Card
import FirstTree.Lib.AssocList
import FirstTree.Server.Inbox

/-!
# In-flight accounting of one socket

Two indexes of the entries sent on a socket and not yet settled: by agent and chat, and by entry id. Next to them the recovery
progress of each agent's chat, whose circuit opens when recoveries keep resetting the same rows.
-/

namespace FirstTree

open Inbox

/-- The in-flight entries of one chat of an agent. -/
structure InboxInFlightChatBucket (Key : Type) where
  chatId : Option Key
  entryIds : Finset Nat

/-- The bucket an entry is filed under. -/
structure InboxInFlightOwner (Key : Type) where
  agentId : Key
  chatKey : Option Key
  deriving DecidableEq

/-- The chat buckets of one agent, by chat key. -/
abbrev InboxInFlightByChat (Key : Type) :=
  AList fun _ : Option Key => InboxInFlightChatBucket Key

/-- The two in-flight indexes of a socket. -/
structure InboxInFlight (Key : Type) where
  inboxInFlightByAgent : AList fun _ : Key => InboxInFlightByChat Key
  inboxInFlightOwnersByEntryId : Nat → Option (InboxInFlightOwner Key)

/-- How often recoveries in a row reset the same rows of a chat, and whether its circuit is open. -/
structure InboxRecoverProgress where
  resetSignature : List Nat
  consecutiveResets : Nat
  «open» : Bool
  deriving DecidableEq

/-- The recovery progress of a socket, by agent and chat. -/
abbrev InboxRecoverProgressMap (Key : Type) :=
  AList fun _ : Key × Key => InboxRecoverProgress

namespace InboxInFlight

variable {Key : Type} [DecidableEq Key]

/-- A new socket has nothing in flight. -/
def empty : InboxInFlight Key :=
  { inboxInFlightByAgent := ∅, inboxInFlightOwnersByEntryId := fun _ => none }

/-- Chat ids and the null chat have distinct keys. -/
def inboxChatKey (chatId : Option Key) : Option Key :=
  chatId

/-- How many entries of an agent's chats are in flight, over its buckets. -/
def bucketTotal (byChat : InboxInFlightByChat Key) : Nat :=
  AssocList.total (fun e => e.2.entryIds.card) byChat

/-- How many entries of an agent are in flight. -/
def inboxInFlightCount (f : InboxInFlight Key) (agentId : Key) : Nat :=
  match f.inboxInFlightByAgent.lookup agentId with
  | none => 0
  | some byChat => bucketTotal byChat

/-- The bucket of an agent's chat. -/
def bucket (f : InboxInFlight Key) (agentId : Key) (chatKey : Option Key) : Option (InboxInFlightChatBucket Key) :=
  (f.inboxInFlightByAgent.lookup agentId).bind fun byChat => byChat.lookup chatKey

/-- How many entries of one chat of an agent are in flight. -/
def inboxInFlightCountForChat (f : InboxInFlight Key) (agentId : Key) (chatId : Option Key) : Nat :=
  match f.bucket agentId (inboxChatKey chatId) with
  | none => 0
  | some b => b.entryIds.card

/-- The budgets of the chats with entries in flight. -/
def bucketBudgets (f : InboxInFlight Key) (agentId : Key) (inboxMaxInFlightPerAgentChat : Nat) : ChatBudgets Key :=
  match f.inboxInFlightByAgent.lookup agentId with
  | none => ∅
  | some byChat =>
    AssocList.insertAll (fun _ => true) (fun e => inboxChatKey e.2.chatId)
      (fun e => inboxMaxInFlightPerAgentChat - e.2.entryIds.card) ∅ byChat.entries

/-- The budgets of a fair claim: what remains of each chat's window, and nothing for a chat whose circuit is open. -/
def inboxInFlightChatBudgets (f : InboxInFlight Key) (progress : InboxRecoverProgressMap Key) (agentId : Key)
    (inboxMaxInFlightPerAgentChat : Nat) : ChatBudgets Key :=
  AssocList.insertAll (fun e => e.2.open && decide (e.1.1 = agentId)) (fun e => inboxChatKey (some e.1.2)) (fun _ => 0)
    (f.bucketBudgets agentId inboxMaxInFlightPerAgentChat) progress.entries

/-- Set or delete the bucket map of an agent. -/
def setByChat (f : InboxInFlight Key) (agentId : Key) (byChat : InboxInFlightByChat Key) : InboxInFlight Key :=
  if byChat.entries = [] then { f with inboxInFlightByAgent := f.inboxInFlightByAgent.erase agentId }
  else { f with inboxInFlightByAgent := f.inboxInFlightByAgent.insert agentId byChat }

/-- Remove one entry from both indexes; an emptied bucket goes, and so does an agent without buckets. -/
def removeOne (f : InboxInFlight Key) (entryId : Nat) : InboxInFlight Key :=
  match f.inboxInFlightOwnersByEntryId entryId with
  | none => f
  | some owner =>
    let f' := { f with inboxInFlightOwnersByEntryId := fun e => if e = entryId then none else f.inboxInFlightOwnersByEntryId e }
    match f.inboxInFlightByAgent.lookup owner.agentId with
    | none => f'
    | some byChat =>
      match byChat.lookup owner.chatKey with
      | none => f'.setByChat owner.agentId byChat
      | some b =>
        let entryIds := b.entryIds.erase entryId
        f'.setByChat owner.agentId
          (if entryIds = ∅ then byChat.erase owner.chatKey else byChat.insert owner.chatKey { b with entryIds := entryIds })

/-- Remove entries from both indexes. -/
def removeInboxInFlight (f : InboxInFlight Key) (entryIds : List Nat) : InboxInFlight Key :=
  entryIds.foldl removeOne f

/-- The in-flight entries of the bucket the entry is filed under. -/
def snapshotCurrentSocketDeliverySet (f : InboxInFlight Key) (entryId : Nat) : Finset Nat :=
  match f.inboxInFlightOwnersByEntryId entryId with
  | none => ∅
  | some owner =>
    match f.bucket owner.agentId owner.chatKey with
    | none => ∅
    | some b => b.entryIds

/-- File an entry under an agent's chat, out of any bucket it was in. -/
def addInboxInFlight (f : InboxInFlight Key) (agentId : Key) (chatId : Option Key) (entryId : Nat) : InboxInFlight Key :=
  let f := f.removeInboxInFlight [entryId]
  let chatKey := inboxChatKey chatId
  let byChat := (f.inboxInFlightByAgent.lookup agentId).getD ∅
  let b := (byChat.lookup chatKey).getD { chatId := chatId, entryIds := ∅ }
  { inboxInFlightByAgent :=
      f.inboxInFlightByAgent.insert agentId (byChat.insert chatKey { b with entryIds := insert entryId b.entryIds })
    inboxInFlightOwnersByEntryId := fun e =>
      if e = entryId then some { agentId := agentId, chatKey := chatKey } else f.inboxInFlightOwnersByEntryId e }

/-- Forget everything in flight for an agent. -/
def clearInboxInFlightForAgent (f : InboxInFlight Key) (agentId : Key) : InboxInFlight Key :=
  match f.inboxInFlightByAgent.lookup agentId with
  | none => f
  | some byChat =>
    { inboxInFlightByAgent := f.inboxInFlightByAgent.erase agentId
      inboxInFlightOwnersByEntryId := fun e =>
        if byChat.entries.any fun b => decide (e ∈ b.2.entryIds) then none else f.inboxInFlightOwnersByEntryId e }

end InboxInFlight

/-- Forget the recovery progress of an agent's chat. -/
def clearInboxRecoverProgressOf {Key : Type} [DecidableEq Key] (progress : InboxRecoverProgressMap Key) (agentId chatId : Key) :
    InboxRecoverProgressMap Key :=
  progress.erase (agentId, chatId)

/-- Forget the recovery progress of every chat of an agent. -/
def clearInboxRecoverProgress {Key : Type} [DecidableEq Key] (progress : InboxRecoverProgressMap Key) (agentId : Key) :
    InboxRecoverProgressMap Key :=
  (progress.keys.filter fun key => decide (key.1 = agentId)).foldl (fun progress key => progress.erase key) progress

end FirstTree
