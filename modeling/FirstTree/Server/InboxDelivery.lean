import FirstTree.Server.InFlight

/-!
# Inbox delivery on one socket

The server side of one client socket: its bound agents, its in-flight indexes and recovery progress, and the socket-wide queue that
runs drains, ACKs and recoveries one after another. An operation of the queue awaits the database between its parts, first of all for
the route of its agent; binds, unbinds, drops and the close may land there, so the part that awaits is kept as the running operation.
The database is a table given to each part, since other sockets and instances change it meanwhile.
-/

namespace FirstTree

open Inbox InboxInFlight

/-- The two in-flight caps of the server. -/
structure InboxDeliveryConfig where
  inboxMaxInFlightPerAgent : Nat
  inboxMaxInFlightPerAgentChat : Nat

/-- What a drain is run for. -/
inductive DrainTrigger (Key : Type) where
  | notify (messageId : Key)
  | bind
  | ack
  | repair
  | recover (chatId : Key)
  deriving DecidableEq

/-- Why a recovery is refused. -/
inductive RecoverRejectReason where
  | agent_not_bound
  | recover_failed
  deriving DecidableEq, Repr

/-- The frames the server sends for inbox delivery. -/
inductive ServerFrame (Key : Type) where
  | deliver (entryId : Nat) (inboxId messageId : Key) (chatId : Option Key)
  | ackAccepted (entryId : Nat) (ref : Key) (disposition : AckDisposition) (ackedCount : Nat)
  | ackRejected (entryId : Nat) (ref : Key) (reason : AckRejectReason)
  | recoverAccepted (ref agentId chatId : Key) (resetCount unackedOutstanding : Nat)
  | recoverRejected (ref agentId chatId : Key) (reason : RecoverRejectReason)
  | bound (agentId : Key)
  deriving DecidableEq

/-- The operation the socket's queue runs, at the point it resumes from. -/
inductive QueueOp (Key : Type) where
  | drain (agentId inboxId : Key) (trigger : DrainTrigger Key)
  | routing (agentId inboxId : Key) (trigger : DrainTrigger Key)
  | claimed (agentId : Key) (entries : List (InboxEntry Key))
  | routingAck (entryId : Nat) (ref : Option Key) (agents : List (Key × Key))
  | acked (entryId : Nat) (ref : Option Key) (routed : List (Key × Key)) (result : AckEntryResult Key)
  | routingRecover (agentId inboxId chatId ref : Key)
  | recovered (agentId inboxId chatId ref : Key) (priorProgress : Option InboxRecoverProgress) (resetEntryIds : List Nat)
  | counting (agentId inboxId chatId ref : Key) (resetCount : Nat)

/-- The state of a socket. `readyOpen` is `socket.readyState === socket.OPEN`. -/
structure InboxSocket (Key : Type) where
  readyOpen : Bool
  boundAgents : AList fun _ : Key => Key
  inFlight : InboxInFlight Key
  inboxRecoverProgress : InboxRecoverProgressMap Key
  running : Option (QueueOp Key)

/-- What can happen on a socket. The flags and numbers are what the environment answers: whether the connections route the agent here,
whether the database still does, whether the query failed, the rows another transaction holds, the time, and how many sends
succeed. -/
inductive SocketOp (Key : Type) where
  | bindLocalAgent (agentId inboxId : Key)
  | resetOnBind (agentId : Key) (failed : Bool)
  | unbind (agentId : Key)
  | dropLocalAgentBinding (agentId : Key)
  | leaveOpen
  | close
  | startDrain (agentId inboxId : Key) (trigger : DrainTrigger Key)
  | routeDrain (here : Bool)
  | runDrain (routed failed : Bool) (locked : Nat → Bool) (now : Nat)
  | finishDrain (sent : Nat)
  | routeAck (entryId : Nat) (ref : Option Key)
  | startAck (entryId : Nat) (ref : Option Key) (routed : Key → Bool) (failed : Bool) (now : Nat)
  | finishAck
  | routeRecover (agentId chatId ref : Key)
  | startRecover (routed failed : Bool)
  | finishRecover
  | countRecover (failed : Bool)

namespace InboxSocket

variable {Key : Type} [DecidableEq Key]

/-- `INBOX_BACKLOG_BATCH_LIMIT`. -/
def backlogBatchLimit : Nat := 50

/-- `INBOX_RECOVER_NO_PROGRESS_LIMIT`. -/
def recoverNoProgressLimit : Nat := 2

/-- The agent and the rows of the claim a drain awaits. -/
def awaitedClaim (s : InboxSocket Key) : Option (Key × List (InboxEntry Key)) :=
  match s.running with
  | some (.claimed agentId entries) => some (agentId, entries)
  | _ => none

/-- A new open socket. -/
def init : InboxSocket Key :=
  { readyOpen := true, boundAgents := ∅, inFlight := .empty, inboxRecoverProgress := ∅, running := none }

/-- `socket.send`: a socket that is not open drops the frame. -/
def send (s : InboxSocket Key) (frames : List (ServerFrame Key)) : List (ServerFrame Key) :=
  if s.readyOpen then frames else []

/-- How many rows a drain may claim. -/
def drainLimit (cfg : InboxDeliveryConfig) (s : InboxSocket Key) (agentId : Key) (trigger : DrainTrigger Key) : Nat :=
  let globalSlotsFree := cfg.inboxMaxInFlightPerAgent - s.inFlight.inboxInFlightCount agentId
  match trigger with
  | .recover chatId =>
    min globalSlotsFree
      (min (cfg.inboxMaxInFlightPerAgentChat - s.inFlight.inboxInFlightCountForChat agentId (some chatId)) backlogBatchLimit)
  | _ => min globalSlotsFree backlogBatchLimit

/-- The claim of a drain: chat-scoped for a recovery, fair otherwise. -/
def drainClaim (cfg : InboxDeliveryConfig) (t : InboxTable Key) (s : InboxSocket Key) (agentId inboxId : Key)
    (trigger : DrainTrigger Key) (locked : Nat → Bool) (now : Nat) : List (InboxEntry Key) × InboxTable Key :=
  let limit := s.drainLimit cfg agentId trigger
  match trigger with
  | .recover chatId => claimBacklogForPushForChat t inboxId chatId limit locked now
  | _ =>
    claimBacklogForPushFair t inboxId limit cfg.inboxMaxInFlightPerAgentChat
      (s.inFlight.inboxInFlightChatBudgets s.inboxRecoverProgress agentId cfg.inboxMaxInFlightPerAgentChat) locked now

/-- `drainBacklogForAgent` up to its first await: whether it goes on to ask the database for the agent's route. -/
def awaitsRoute (s : InboxSocket Key) (agentId : Key) (here : Bool) : Bool :=
  s.readyOpen && (s.boundAgents.lookup agentId).isSome && here

/-- `drainBacklogForAgent` from the answer on: what it claims, or nothing when the agent is not routed here, there is no free slot, or
the claim fails. Neither the socket nor the binding is looked at again. -/
def drainBacklogForAgent (cfg : InboxDeliveryConfig) (t : InboxTable Key) (s : InboxSocket Key) (agentId inboxId : Key)
    (trigger : DrainTrigger Key) (routed failed : Bool) (locked : Nat → Bool) (now : Nat) :
    Option (List (InboxEntry Key) × InboxTable Key) :=
  if !routed then none
  else if s.drainLimit cfg agentId trigger = 0 then none
  else if failed then none
  else some (s.drainClaim cfg t agentId inboxId trigger locked now)

/-- The `inbox:deliver` frame of an entry. -/
def deliverFrame (entry : InboxEntry Key) : ServerFrame Key :=
  .deliver entry.id entry.inboxId entry.messageId entry.chatId

/-- The send loop of a drain: each entry is filed before it is sent, and the first send that fails takes its entry out and ends
the loop. -/
def sendEntries (f : InboxInFlight Key) (agentId : Key) : List (InboxEntry Key) → Nat → InboxInFlight Key × List (ServerFrame Key)
  | [], _ => (f, [])
  | entry :: _, 0 => ((f.addInboxInFlight agentId entry.chatId entry.id).removeInboxInFlight [entry.id], [])
  | entry :: rest, sent + 1 =>
    let (f', frames) := sendEntries (f.addInboxInFlight agentId entry.chatId entry.id) agentId rest sent
    (f', deliverFrame entry :: frames)

/-- The agents that are bound on the socket, with their inboxes. -/
def boundAgentValues (s : InboxSocket Key) : List (Key × Key) :=
  s.boundAgents.entries.map fun e => (e.1, e.2)

/-- `routedBoundAgents`: the agents that are still routed here. -/
def routedBoundAgents (agents : List (Key × Key)) (routed : Key → Bool) : List (Key × Key) :=
  agents.filter fun a => routed a.1

/-- After an ACK was answered: reply, and when it committed rows of an agent bound here, clear the chat's circuit, free the slots
and drain the agent's backlog. -/
def finishAck (s : InboxSocket Key) (entryId : Nat) (ref : Option Key) (routed : List (Key × Key)) :
    AckEntryResult Key → InboxSocket Key × List (ServerFrame Key)
  | .rejected reason =>
    ({ s with running := none }, s.send (match ref with
      | some ref => [.ackRejected entryId ref reason]
      | none => []))
  | .ok throughEntry disposition ackedEntryIds =>
    let frames := s.send (match ref with
      | some ref => [.ackAccepted entryId ref disposition ackedEntryIds.length]
      | none => [])
    match routed.find? fun a => decide (a.2 = throughEntry.inboxId) with
    | none => ({ s with running := none }, frames)
    | some owner =>
      if ackedEntryIds = [] then ({ s with running := none }, frames)
      else
        ({ s with
            inboxRecoverProgress := (match throughEntry.chatId with
              | some chatId => clearInboxRecoverProgressOf s.inboxRecoverProgress owner.1 chatId
              | none => s.inboxRecoverProgress)
            inFlight := s.inFlight.removeInboxInFlight ackedEntryIds
            running := some (.drain owner.1 owner.2 .ack) }, frames)

/-- How many recoveries in a row have reset exactly these rows. -/
def consecutiveResetsOf (priorProgress : Option InboxRecoverProgress) (resetSignature : List Nat) : Nat :=
  match priorProgress with
  | some prior => if prior.resetSignature = resetSignature then prior.consecutiveResets + 1 else 1
  | none => 1

/-- After the reset of a recovery: free the slots of the reset rows and track progress; the circuit opens when too many recoveries
in a row reset the same rows. -/
def finishRecover (s : InboxSocket Key) (agentId inboxId chatId ref : Key) (priorProgress : Option InboxRecoverProgress)
    (resetEntryIds : List Nat) : InboxSocket Key × List (ServerFrame Key) :=
  let s := { s with inFlight := s.inFlight.removeInboxInFlight resetEntryIds }
  let next : QueueOp Key := .counting agentId inboxId chatId ref resetEntryIds.length
  if resetEntryIds = [] then
    ({ s with inboxRecoverProgress := s.inboxRecoverProgress.erase (agentId, chatId), running := some next }, [])
  else
    let resetSignature := resetEntryIds.insertionSort (· ≤ ·)
    let consecutiveResets := consecutiveResetsOf priorProgress resetSignature
    if recoverNoProgressLimit < consecutiveResets then
      ({ s with
          inboxRecoverProgress := s.inboxRecoverProgress.insert (agentId, chatId)
            { resetSignature := resetSignature, consecutiveResets := consecutiveResets, «open» := true }
          running := none },
        s.send [.recoverRejected ref agentId chatId .recover_failed])
    else
      ({ s with
          inboxRecoverProgress := s.inboxRecoverProgress.insert (agentId, chatId)
            { resetSignature := resetSignature, consecutiveResets := consecutiveResets, «open» := false }
          running := some next }, [])

/-- The start of a recovery: refused for an agent that is not bound here. -/
def routeRecover (s : InboxSocket Key) (agentId chatId ref : Key) : InboxSocket Key × List (ServerFrame Key) :=
  match s.boundAgents.lookup agentId with
  | none => (s, s.send [.recoverRejected ref agentId chatId .agent_not_bound])
  | some inboxId => ({ s with running := some (.routingRecover agentId inboxId chatId ref) }, [])

/-- A recovery once the route is known: refused for an agent that is not routed here and for a chat whose circuit is open. -/
def startRecover (t : InboxTable Key) (s : InboxSocket Key) (agentId inboxId chatId ref : Key) (routed failed : Bool) :
    InboxTable Key × InboxSocket Key × List (ServerFrame Key) :=
  let idle := { s with running := none }
  let priorProgress := s.inboxRecoverProgress.lookup (agentId, chatId)
  if !routed then (t, idle, s.send [.recoverRejected ref agentId chatId .agent_not_bound])
  else if priorProgress.any (·.open) then (t, idle, s.send [.recoverRejected ref agentId chatId .recover_failed])
  else if failed then (t, idle, s.send [.recoverRejected ref agentId chatId .recover_failed])
  else
    let (resetEntryIds, t') := recoverUnackedForScope t inboxId (some chatId)
    (t', { s with running := some (.recovered agentId inboxId chatId ref priorProgress resetEntryIds) }, [])

/-- `dropLocalAgentBinding`, with `clearAgent`. -/
def dropLocalAgentBinding (s : InboxSocket Key) (agentId : Key) : InboxSocket Key :=
  { s with
    boundAgents := s.boundAgents.erase agentId
    inboxRecoverProgress := clearInboxRecoverProgress s.inboxRecoverProgress agentId
    inFlight := s.inFlight.clearInboxInFlightForAgent agentId }

/-- `agent:unbind`, with `clearAfterUnbind`. -/
def unbind (s : InboxSocket Key) (agentId : Key) : InboxSocket Key :=
  { s with
    boundAgents := s.boundAgents.erase agentId
    inFlight := s.inFlight.clearInboxInFlightForAgent agentId }

/-- The first part of `agent:bind`: the recovery progress of the agent is forgotten. -/
def bindLocalAgent (s : InboxSocket Key) (agentId inboxId : Key) : InboxSocket Key :=
  { s with
    inboxRecoverProgress := clearInboxRecoverProgress s.inboxRecoverProgress agentId
    boundAgents := s.boundAgents.insert agentId inboxId }

/-- The close of the connection, with `clearState`. -/
def close (s : InboxSocket Key) : InboxSocket Key :=
  { s with readyOpen := false, boundAgents := ∅, inboxRecoverProgress := ∅, inFlight := .empty }

/-- One step of a socket over the table; `none` when the step is not the one its queue is at. -/
def step (cfg : InboxDeliveryConfig) (t : InboxTable Key) (s : InboxSocket Key) :
    SocketOp Key → Option (InboxTable Key × InboxSocket Key × List (ServerFrame Key))
  | .bindLocalAgent agentId inboxId => some (t, s.bindLocalAgent agentId inboxId, [])
  | .resetOnBind agentId failed =>
    (s.boundAgents.lookup agentId).map fun inboxId =>
      (if failed then t else resetDeliveredForInboxes t [inboxId], s, s.send [.bound agentId])
  | .unbind agentId => some (t, s.unbind agentId, [])
  | .dropLocalAgentBinding agentId => some (t, s.dropLocalAgentBinding agentId, [])
  | .leaveOpen => some (t, { s with readyOpen := false }, [])
  | .close => some (t, s.close, [])
  | .startDrain agentId inboxId trigger =>
    match s.running with
    | none => some (t, { s with running := some (.drain agentId inboxId trigger) }, [])
    | some _ => none
  | .routeDrain here =>
    match s.running with
    | some (.drain agentId inboxId trigger) =>
      some (t, { s with running := if s.awaitsRoute agentId here then some (.routing agentId inboxId trigger) else none }, [])
    | _ => none
  | .runDrain routed failed locked now =>
    match s.running with
    | some (.routing agentId inboxId trigger) =>
      match s.drainBacklogForAgent cfg t agentId inboxId trigger routed failed locked now with
      | none => some (t, { s with running := none }, [])
      | some (entries, t') => some (t', { s with running := some (.claimed agentId entries) }, [])
    | _ => none
  | .finishDrain sent =>
    match s.running with
    | some (.claimed agentId entries) =>
      let (f, frames) := sendEntries s.inFlight agentId entries (if s.readyOpen then sent else 0)
      some (t, { s with inFlight := f, running := none }, frames)
    | _ => none
  | .routeAck entryId ref =>
    match s.running with
    | none => some (t, { s with running := some (.routingAck entryId ref s.boundAgentValues) }, [])
    | some _ => none
  | .startAck entryId ref routed failed now =>
    match s.running with
    | some (.routingAck entryId' ref' agents) =>
      if entryId' = entryId ∧ ref' = ref then
        if failed then some (t, { s with running := none }, [])
        else
          let routedAgents := routedBoundAgents agents routed
          let (result, t') := ackThroughEntryIdForBoundAgents t entryId (routedAgents.map (·.2))
            (s.inFlight.snapshotCurrentSocketDeliverySet entryId) now
          some (t', { s with running := some (.acked entryId ref routedAgents result) }, [])
      else none
    | _ => none
  | .finishAck =>
    match s.running with
    | some (.acked entryId ref routed result) =>
      let (s', frames) := s.finishAck entryId ref routed result
      some (t, s', frames)
    | _ => none
  | .routeRecover agentId chatId ref =>
    match s.running with
    | none =>
      let (s', frames) := s.routeRecover agentId chatId ref
      some (t, s', frames)
    | some _ => none
  | .startRecover routed failed =>
    match s.running with
    | some (.routingRecover agentId inboxId chatId ref) => some (s.startRecover t agentId inboxId chatId ref routed failed)
    | _ => none
  | .finishRecover =>
    match s.running with
    | some (.recovered agentId inboxId chatId ref priorProgress resetEntryIds) =>
      let (s', frames) := s.finishRecover agentId inboxId chatId ref priorProgress resetEntryIds
      some (t, s', frames)
    | _ => none
  | .countRecover failed =>
    match s.running with
    | some (.counting agentId inboxId chatId ref resetCount) =>
      if failed then some (t, { s with running := none }, s.send [.recoverRejected ref agentId chatId .recover_failed])
      else
        some (t, { s with running := some (.drain agentId inboxId (.recover chatId)) },
          s.send [.recoverAccepted ref agentId chatId resetCount (countUnackedForScope t inboxId (some chatId))])
    | _ => none

end InboxSocket

end FirstTree
