import Mathlib.Data.Finset.Basic
import Mathlib.Data.List.Sort
import Mathlib.Logic.Function.Basic
import FirstTree.Client.Deduplicator

/-!
# The inbox delivery coordinator

The client's ledgers of inbox deliveries, one a chat, and the ACK-through and recovery requests that settle them. Everything the
coordinator does between two awaits is one function. What it awaits is state: the ACKs chained for a chat, the recovery that runs for
a chat, the notices being posted and the continuations that are ready to resume. A settled promise lets the scheduler resume its
continuations in any order, which covers the order the event loop takes.

Ledger entries are objects that other code may hold on to, so each carries the number of its creation as its identity.
-/

namespace FirstTree

/-- The phase of a delivery. -/
inductive DeliveryPhase where
  | «open»
  | owned
  | terminal
  deriving DecidableEq, Repr

/-- Whether a chat waits for the server to redeliver. -/
inductive RecoveryDebt where
  | none
  | required
  | running
  deriving DecidableEq, Repr

/-- A delivery to be routed to a session. -/
structure DeliveryWork (Key : Type) where
  chatId : Key
  entryId : Nat
  messageId : Key
  deriving DecidableEq

/-- What becomes of a received frame. -/
inductive DeliveryDecision (Key : Type) where
  | deliver (work : DeliveryWork Key)
  | duplicateInFlight
  | recovering
  deriving DecidableEq

/-- What a route learns when it takes a delivery over. -/
inductive DeliveryRouteOwnership where
  | owned
  | settled
  | lost
  deriving DecidableEq, Repr

/-- An inbox frame as the client reads it. -/
structure InboxEntryWithMessage (Key : Type) where
  id : Nat
  chatId : Option Key
  messageId : Key
  messageChatId : Key

/-- The message of a turn, by the fields the coordinator reads. -/
structure SessionMessage (Key : Type) where
  chatId : Key
  inboxEntryId : Option Nat

/-- A ledger entry. -/
structure TrackedDelivery (Key Payload : Type) where
  uid : Nat
  entryId : Nat
  messageId : Key
  phase : DeliveryPhase
  processingStarted : Bool
  requiresDurableNotice : Bool
  durableNoticePayload : Option Payload
  noticeSettleInFlight : Bool
  replayFencedWithheld : Bool
  deriving DecidableEq

/-- The ledger of a chat. `admissions` counts the operations in the admission queue, which is null when there are none; `ackQueue` is
the number of the last ACK-through chained. -/
structure ChatInboxLedger (Key Payload : Type) where
  entries : List (TrackedDelivery Key Payload)
  recoveryDebt : RecoveryDebt
  recoveryActivationReady : Bool
  recoveryWindowOpen : Bool
  needsAckSettlementReconcile : Bool
  admissions : Nat
  ackQueue : Option Nat

/-- Who called `ackThrough`, which is what continues when it returns. -/
inductive AckCaller where
  | finishTurn
  | terminalRejected
  | redeliveryTerminalRetry
  | prepareSuspend
  | prepareOperatorSuspend
  | drainForTerminate (requestNow : Bool)
  | noticeRequiredRedelivery (uid : Nat)
  deriving DecidableEq, Repr

/-- How far an ACK-through is: chained, awaiting `ackEntry` with the prefix it checked, or awaiting a recovery (by its number) that a
non-terminal prefix gap asked for. -/
inductive AckStage (Key Payload : Type) where
  | queued
  | sending (ackPrefix : List (TrackedDelivery Key Payload))
  | blocked (recovery : Option Nat)

/-- Whether `ackEntry` was called and has not settled. -/
def AckStage.isSending {Key Payload : Type} : AckStage Key Payload → Bool
  | .sending _ => true
  | _ => false

/-- An ACK-through in a chat's chain. -/
structure AckJob (Key Payload : Type) where
  jobId : Nat
  throughEntryId : Nat
  requireTerminalPrefix : Bool
  requestRecoveryOnAckFailure : Bool
  caller : AckCaller
  stage : AckStage Key Payload

/-- The recovery of a chat that runs, by its number, and whether its request was answered. -/
structure ChatRecovery where
  number : Nat
  answered : Bool
  deriving DecidableEq, Repr

/-- A continuation that is ready to resume. -/
inductive Continuation (Key : Type) where
  | ackSettled (chatId : Key) (jobId : Nat) (caller : AckCaller) (committed : Bool)
  | ackReturned (chatId : Key) (caller : AckCaller) (committed : Bool)
  | noticeFinally (chatId : Key) (uid : Nat)
  deriving DecidableEq

/-- A notice being posted for a ledger entry. -/
structure NoticePost (Key Payload : Type) where
  chatId : Key
  uid : Nat
  entryId : Nat
  payload : Payload

/-- The callbacks of the coordinator, as it calls them, and the disposition `finishTurn` returns. -/
inductive CoordinatorCall (Key Payload : Type) where
  | ackEntry (chatId : Key) (entryId : Nat)
  | recoverChat (chatId : Key)
  | postRuntimeFailureNotice (chatId : Key) (payload : Payload)
  | onDeliveriesCommitted (chatId : Key) (messageIds : List Key)
  | finishTurnReturned (chatId : Key) (settled : Bool)

/-- The record of a confirmed ACK: the prefix that was checked when it was sent and the entries that left the ledger on it. -/
structure ConfirmedAck (Key Payload : Type) where
  chatId : Key
  throughEntryId : Nat
  ackPrefix : List (TrackedDelivery Key Payload)
  committed : List (TrackedDelivery Key Payload)

/-- Which optional callbacks the coordinator was given. -/
structure InboxDeliveryCoordinatorConfig where
  recoverChat : Bool
  postRuntimeFailureNotice : Bool

/-- The state of the coordinator: its maps, the promises it awaits, the callbacks it made and the ACKs that were confirmed. -/
structure InboxDeliveryCoordinator (Key Payload : Type) where
  deduplicator : Deduplicator (Key × Key) 1000
  recentlySettled : Deduplicator (Key × Nat × Key) 1000
  fenceSettledMessages : Key → Finset Key
  ledgers : Key → Option (ChatInboxLedger Key Payload)
  recoveringChats : Key → Option ChatRecovery
  pendingAcks : Key → List (AckJob Key Payload)
  noticePosts : List (NoticePost Key Payload)
  resumable : List (Continuation Key)
  nextUid : Nat
  calls : List (CoordinatorCall Key Payload)
  confirmedAcks : List (ConfirmedAck Key Payload)

namespace ChatInboxLedger

variable {Key Payload : Type}

/-- A new ledger. -/
def empty : ChatInboxLedger Key Payload :=
  { entries := [], recoveryDebt := .none, recoveryActivationReady := false, recoveryWindowOpen := false,
    needsAckSettlementReconcile := false, admissions := 0, ackQueue := none }

/-- The recovery window closes once nothing of the recovered burst is left. -/
def closeWindow (l : ChatInboxLedger Key Payload) : ChatInboxLedger Key Payload :=
  if l.recoveryWindowOpen ∧ l.entries = [] ∧ l.recoveryDebt = .none ∧ l.admissions = 0 ∧ l.ackQueue = none then
    { l with recoveryWindowOpen := false }
  else l

/-- Nothing keeps the ledger. -/
def Disposable (l : ChatInboxLedger Key Payload) : Prop :=
  l.entries = [] ∧ l.recoveryDebt = .none ∧ l.recoveryActivationReady = false ∧ l.recoveryWindowOpen = false ∧
    l.needsAckSettlementReconcile = false ∧ l.admissions = 0 ∧ l.ackQueue = none

instance (l : ChatInboxLedger Key Payload) : Decidable l.Disposable :=
  haveI : Decidable (l.entries = []) := decidable_of_iff (l.entries.isEmpty = true) List.isEmpty_iff
  inferInstanceAs (Decidable (_ ∧ _))

end ChatInboxLedger

namespace InboxDeliveryCoordinator

variable {Key Payload : Type} [DecidableEq Key]

/-- A new coordinator. -/
def init : InboxDeliveryCoordinator Key Payload :=
  { deduplicator := .empty, recentlySettled := .empty, fenceSettledMessages := fun _ => ∅, ledgers := fun _ => none,
    recoveringChats := fun _ => none, pendingAcks := fun _ => [], noticePosts := [], resumable := [], nextUid := 0, calls := [],
    confirmedAcks := [] }

/-! ## Ledgers -/

/-- The ledger entries of a chat. -/
def entriesOf (s : InboxDeliveryCoordinator Key Payload) (chatId : Key) : List (TrackedDelivery Key Payload) :=
  ((s.ledgers chatId).map (·.entries)).getD []

/-- The ledger of a chat, a new one if the chat has none. -/
def ledger (s : InboxDeliveryCoordinator Key Payload) (chatId : Key) : ChatInboxLedger Key Payload :=
  (s.ledgers chatId).getD .empty

/-- Put a ledger in the map. -/
def setLedger (s : InboxDeliveryCoordinator Key Payload) (chatId : Key) (l : ChatInboxLedger Key Payload) :
    InboxDeliveryCoordinator Key Payload :=
  { s with ledgers := Function.update s.ledgers chatId (some l) }

/-- Rewrite the entries of a chat that has a ledger. -/
def updateEntries (s : InboxDeliveryCoordinator Key Payload) (chatId : Key)
    (f : List (TrackedDelivery Key Payload) → List (TrackedDelivery Key Payload)) : InboxDeliveryCoordinator Key Payload :=
  match s.ledgers chatId with
  | none => s
  | some l => s.setLedger chatId { l with entries := f l.entries }

/-- `cleanupLedger`: a ledger that nothing keeps is deleted. -/
def cleanupLedger (s : InboxDeliveryCoordinator Key Payload) (chatId : Key) : InboxDeliveryCoordinator Key Payload :=
  match s.ledgers chatId with
  | none => s
  | some l =>
    if l.closeWindow.Disposable then { s with ledgers := Function.update s.ledgers chatId none }
    else s.setLedger chatId l.closeWindow

/-- The key a delivery is deduplicated by. -/
def dedupKey (chatId messageId : Key) : Key × Key := (chatId, messageId)

/-- The key a settled delivery is remembered by. -/
def settledKey (work : DeliveryWork Key) : Key × Nat × Key := (work.chatId, work.entryId, work.messageId)

/-- `messageEntryIds`: the entry ids of the messages of this chat. -/
def messageEntryIds (chatId : Key) (messages : List (SessionMessage Key)) : List Nat :=
  (messages.filter (·.chatId = chatId)).filterMap (·.inboxEntryId)

/-- `lastMessageEntryId`: the last of them. -/
def lastMessageEntryId (chatId : Key) (messages : List (SessionMessage Key)) : Option Nat :=
  (messageEntryIds chatId messages).getLast?

/-- `findEntry`. -/
def findEntry (s : InboxDeliveryCoordinator Key Payload) (chatId : Key) (entryId : Nat) : Option (TrackedDelivery Key Payload) :=
  (s.entriesOf chatId).find? (·.entryId = entryId)

/-- Entries leave a ledger as settled: their dedup keys are dropped and they are remembered as settled. -/
def forgetSettled (s : InboxDeliveryCoordinator Key Payload) (chatId : Key) (committed : List (TrackedDelivery Key Payload)) :
    InboxDeliveryCoordinator Key Payload :=
  committed.foldl (fun s tracked =>
    { s with
      deduplicator := s.deduplicator.drop (dedupKey chatId tracked.messageId)
      recentlySettled := (s.recentlySettled.isDuplicate (settledKey ⟨chatId, tracked.entryId, tracked.messageId⟩)).2 }) s

/-- Call back with what was committed, when anything was. -/
def onDeliveriesCommitted (s : InboxDeliveryCoordinator Key Payload) (chatId : Key)
    (committed : List (TrackedDelivery Key Payload)) : InboxDeliveryCoordinator Key Payload :=
  if committed.isEmpty then s
  else { s with calls := s.calls ++ [.onDeliveriesCommitted chatId (committed.map (·.messageId))] }

/-! ## Recovery -/

/-- `requestRecovery`, up to its await: a recovery that runs is joined, and one that starts is the number it returns. -/
def requestRecovery (cfg : InboxDeliveryCoordinatorConfig) (s : InboxDeliveryCoordinator Key Payload) (chatId : Key) :
    InboxDeliveryCoordinator Key Payload :=
  if (s.recoveringChats chatId).isSome then s
  else if cfg.recoverChat then
    { s.setLedger chatId { s.ledger chatId with recoveryDebt := .running } with
      recoveringChats := Function.update s.recoveringChats chatId (some ⟨s.nextUid, false⟩)
      nextUid := s.nextUid + 1
      calls := s.calls ++ [.recoverChat chatId] }
  else s.setLedger chatId { s.ledger chatId with recoveryDebt := .required }

/-- `markRecoveryDebt`, up to its await: new debt retires the recovery window, and asks for a recovery unless told not to. -/
def markRecoveryDebt (cfg : InboxDeliveryCoordinatorConfig) (s : InboxDeliveryCoordinator Key Payload) (chatId : Key)
    (requestNow : Bool) : InboxDeliveryCoordinator Key Payload :=
  let s := s.setLedger chatId
    { s.ledger chatId with recoveryDebt := .required, recoveryWindowOpen := false, recoveryActivationReady := false }
  if requestNow then s.requestRecovery cfg chatId else s

/-- The entries that survive a recovery: terminals, which the server may have acked, and those that owe a notice. -/
def SurvivesRecovery (tracked : TrackedDelivery Key Payload) : Bool :=
  tracked.phase = .terminal || tracked.requiresDurableNotice

/-- `clearEntriesForRecoverySuccess`. -/
def clearEntriesForRecoverySuccess (s : InboxDeliveryCoordinator Key Payload) (chatId : Key) :
    InboxDeliveryCoordinator Key Payload :=
  let l := s.ledger chatId
  let dropped := l.entries.filter (fun tracked => ! SurvivesRecovery tracked)
  { s.setLedger chatId { l with entries := l.entries.filter SurvivesRecovery } with
    deduplicator := dropped.foldl (fun d tracked => d.drop (dedupKey chatId tracked.messageId)) s.deduplicator }

/-- `markFenceSettled`. -/
def markFenceSettled (s : InboxDeliveryCoordinator Key Payload) (chatId : Key) (messageIds : List Key) :
    InboxDeliveryCoordinator Key Payload :=
  { s with
    fenceSettledMessages :=
      Function.update s.fenceSettledMessages chatId (s.fenceSettledMessages chatId ∪ messageIds.toFinset) }

/-- `commitRemainingEntriesFromServerProof`: the server has nothing of the chat left, so what is left here is settled. -/
def commitRemainingEntriesFromServerProof (s : InboxDeliveryCoordinator Key Payload) (chatId : Key) :
    InboxDeliveryCoordinator Key Payload :=
  match s.ledgers chatId with
  | none => s.cleanupLedger chatId
  | some l =>
    let s := s.setLedger chatId { l with entries := [], needsAckSettlementReconcile := false }
    if l.entries.isEmpty then s.cleanupLedger chatId
    else
      (((s.markFenceSettled chatId (l.entries.map (·.messageId))).forgetSettled chatId l.entries).onDeliveriesCommitted chatId
        l.entries).cleanupLedger chatId

/-- The request of a running recovery was answered. -/
def answerRecovery (s : InboxDeliveryCoordinator Key Payload) (chatId : Key) : InboxDeliveryCoordinator Key Payload :=
  { s with
    recoveringChats :=
      Function.update s.recoveringChats chatId ((s.recoveringChats chatId).map fun r => { r with answered := true }) }

/-- What `requestRecovery` does with the answer of `recoverChat`. `unackedOutstanding` is absent when the answer does not say; zero
proves the chat settled. -/
def recoverChatResolved (s : InboxDeliveryCoordinator Key Payload) (chatId : Key) (unackedOutstanding : Option Nat) :
    InboxDeliveryCoordinator Key Payload :=
  let s := s.answerRecovery chatId
  let s := s.setLedger chatId { s.ledger chatId with needsAckSettlementReconcile := false }
  if unackedOutstanding = some 0 then
    let s := s.commitRemainingEntriesFromServerProof chatId
    match s.ledgers chatId with
    | none => s
    | some l =>
      (s.setLedger chatId
        { l with recoveryDebt := .none, recoveryActivationReady := false, recoveryWindowOpen := false }).cleanupLedger chatId
  else
    let s := s.clearEntriesForRecoverySuccess chatId
    s.setLedger chatId
      { s.ledger chatId with recoveryDebt := .none, recoveryActivationReady := true, recoveryWindowOpen := false }

/-- What `requestRecovery` does when `recoverChat` rejects. -/
def recoverChatRejected (s : InboxDeliveryCoordinator Key Payload) (chatId : Key) : InboxDeliveryCoordinator Key Payload :=
  (s.answerRecovery chatId).setLedger chatId { s.ledger chatId with recoveryDebt := .required }

/-- The recovery of a chat has settled. -/
def recoverChatFinally (s : InboxDeliveryCoordinator Key Payload) (chatId : Key) : InboxDeliveryCoordinator Key Payload :=
  { s with recoveringChats := Function.update s.recoveringChats chatId none }

/-- `reconcileAckSettlementAfterBind` for one of its chats, when no recovery of it runs. -/
def reconcileAckSettlement (cfg : InboxDeliveryCoordinatorConfig) (s : InboxDeliveryCoordinator Key Payload) (chatId : Key) :
    InboxDeliveryCoordinator Key Payload :=
  if ((s.ledgers chatId).map (·.needsAckSettlementReconcile)).getD false then s.requestRecovery cfg chatId else s

/-- `completeBindRecovery`: the bind reset the chat's rows on the server. -/
def completeBindRecovery (s : InboxDeliveryCoordinator Key Payload) (chatId : Key) : InboxDeliveryCoordinator Key Payload :=
  match s.ledgers chatId with
  | none => s
  | some _ =>
    let s := s.clearEntriesForRecoverySuccess chatId
    s.setLedger chatId
      { s.ledger chatId with recoveryDebt := .none, recoveryActivationReady := true, recoveryWindowOpen := false }

/-- `takeRecoveryActivationReady`. -/
def takeRecoveryActivationReady (s : InboxDeliveryCoordinator Key Payload) (chatId : Key) :
    Bool × InboxDeliveryCoordinator Key Payload :=
  match s.ledgers chatId with
  | none => (false, s)
  | some l =>
    if l.recoveryActivationReady then
      (true, s.setLedger chatId { l with recoveryActivationReady := false, recoveryWindowOpen := true })
    else
      (l.recoveryWindowOpen && (! l.entries.isEmpty || l.recoveryDebt ≠ .none || l.admissions ≠ 0 ||
        l.needsAckSettlementReconcile), s)

/-! ## ACK-through -/

/-- `ackThrough`, up to its await: the ACK is chained behind the chat's others. A chat without a ledger has nothing to ACK. -/
def ackThrough (s : InboxDeliveryCoordinator Key Payload) (chatId : Key) (throughEntryId : Nat) (caller : AckCaller)
    (requireTerminalPrefix requestRecoveryOnAckFailure : Bool) : InboxDeliveryCoordinator Key Payload :=
  match s.ledgers chatId with
  | none => { s with resumable := s.resumable ++ [.ackReturned chatId caller false] }
  | some l =>
    { s.setLedger chatId { l with ackQueue := some s.nextUid } with
      nextUid := s.nextUid + 1
      pendingAcks := Function.update s.pendingAcks chatId (s.pendingAcks chatId ++
        [{ jobId := s.nextUid, throughEntryId, requireTerminalPrefix, requestRecoveryOnAckFailure, caller, stage := .queued }]) }

/-- The first ACK of a chain has returned: it leaves the chain and its `finally` is ready to run. -/
def settleAck (s : InboxDeliveryCoordinator Key Payload) (chatId : Key) (job : AckJob Key Payload) (committed : Bool) :
    InboxDeliveryCoordinator Key Payload :=
  { s with
    pendingAcks := Function.update s.pendingAcks chatId (s.pendingAcks chatId).tail
    resumable := s.resumable ++ [.ackSettled chatId job.jobId job.caller committed] }

/-- The first ACK of a chain comes to an await. -/
def awaitAck (s : InboxDeliveryCoordinator Key Payload) (chatId : Key) (job : AckJob Key Payload) (stage : AckStage Key Payload) :
    InboxDeliveryCoordinator Key Payload :=
  { s with pendingAcks := Function.update s.pendingAcks chatId ({ job with stage } :: (s.pendingAcks chatId).tail) }

/-- The prefix of the ledger up to an entry, when the ledger holds that entry. -/
def ackPrefix (entries : List (TrackedDelivery Key Payload)) (throughEntryId : Nat) : Option (List (TrackedDelivery Key Payload)) :=
  match entries.findIdx? (·.entryId = throughEntryId) with
  | none => none
  | some index => some (entries.take (index + 1))

/-- `ackThroughNow`, up to its await: the prefix is checked and the ACK is sent. -/
def ackThroughNow (cfg : InboxDeliveryCoordinatorConfig) (s : InboxDeliveryCoordinator Key Payload) (chatId : Key)
    (job : AckJob Key Payload) : InboxDeliveryCoordinator Key Payload :=
  match s.ledgers chatId with
  | none => s.settleAck chatId job false
  | some l =>
    if l.entries.isEmpty ∨ l.recoveryDebt ≠ .none then s.settleAck chatId job false
    else
      match ackPrefix l.entries job.throughEntryId with
      | none => s.settleAck chatId job false
      | some pre =>
        if job.requireTerminalPrefix ∧ ∃ tracked ∈ pre, tracked.phase ≠ .terminal then
          let s := s.markRecoveryDebt cfg chatId true
          s.awaitAck chatId job (.blocked ((s.recoveringChats chatId).map (·.number)))
        else
          { s.awaitAck chatId job (.sending pre) with
            calls := s.calls ++ [.ackEntry chatId job.throughEntryId] }

/-- Keep the record of a confirmed ACK. -/
def recordAck (s : InboxDeliveryCoordinator Key Payload) (ack : ConfirmedAck Key Payload) : InboxDeliveryCoordinator Key Payload :=
  { s with confirmedAcks := s.confirmedAcks ++ [ack] }

/-- `ackThroughNow` after `ackEntry` resolved: every entry up to the cursor is committed. -/
def ackEntryResolved (s : InboxDeliveryCoordinator Key Payload) (chatId : Key) (job : AckJob Key Payload)
    (pre : List (TrackedDelivery Key Payload)) : InboxDeliveryCoordinator Key Payload :=
  match s.ledgers chatId with
  | none => s.settleAck chatId job false
  | some l =>
    let committed := l.entries.filter (·.entryId ≤ job.throughEntryId)
    let remaining := l.entries.filter (fun tracked => decide (job.throughEntryId < tracked.entryId))
    let recoveryDebt := if remaining.isEmpty ∧ l.recoveryDebt = .required then .none else l.recoveryDebt
    let s := s.setLedger chatId { l with entries := remaining, needsAckSettlementReconcile := false, recoveryDebt }
    let s := (s.forgetSettled chatId committed).onDeliveriesCommitted chatId committed
    let s := s.recordAck { chatId, throughEntryId := job.throughEntryId, ackPrefix := pre, committed }
    (s.cleanupLedger chatId).settleAck chatId job true

/-- `ackThroughNow` after `ackEntry` rejected: the ledger is kept, and whether the server acked is unknown. -/
def ackEntryRejected (cfg : InboxDeliveryCoordinatorConfig) (s : InboxDeliveryCoordinator Key Payload) (chatId : Key)
    (job : AckJob Key Payload) : InboxDeliveryCoordinator Key Payload :=
  let s := match s.ledgers chatId with
    | none => s
    | some l => s.setLedger chatId { l with needsAckSettlementReconcile := true }
  (s.markRecoveryDebt cfg chatId job.requestRecoveryOnAckFailure).settleAck chatId job false

/-- What continues in the caller of `ackThrough`. -/
def afterAck (cfg : InboxDeliveryCoordinatorConfig) (s : InboxDeliveryCoordinator Key Payload) (chatId : Key) (caller : AckCaller)
    (committed : Bool) : InboxDeliveryCoordinator Key Payload :=
  let debtForRemaining (requestNow : Bool) :=
    if (s.entriesOf chatId).isEmpty then s else s.markRecoveryDebt cfg chatId requestNow
  match caller with
  | .finishTurn => { s with calls := s.calls ++ [.finishTurnReturned chatId committed] }
  | .terminalRejected => s
  | .redeliveryTerminalRetry => s
  | .prepareSuspend => debtForRemaining true
  | .prepareOperatorSuspend => debtForRemaining false
  | .drainForTerminate requestNow => debtForRemaining requestNow
  | .noticeRequiredRedelivery uid =>
    s.updateEntries chatId (List.map fun tracked =>
      if tracked.uid = uid then { tracked with noticeSettleInFlight := false } else tracked)

/-- The `finally` of `ackThrough`: the last ACK of the chain leaves the queue null. -/
def releaseAckQueue (s : InboxDeliveryCoordinator Key Payload) (chatId : Key) (jobId : Nat) :
    InboxDeliveryCoordinator Key Payload :=
  match s.ledgers chatId with
  | none => s
  | some l => if l.ackQueue = some jobId then (s.setLedger chatId { l with ackQueue := none }).cleanupLedger chatId else s

/-- A ready continuation resumes. -/
def resume (cfg : InboxDeliveryCoordinatorConfig) (s : InboxDeliveryCoordinator Key Payload) :
    Continuation Key → InboxDeliveryCoordinator Key Payload
  | .ackSettled chatId jobId caller committed =>
    let s := s.releaseAckQueue chatId jobId
    { s with resumable := s.resumable ++ [.ackReturned chatId caller committed] }
  | .ackReturned chatId caller committed => s.afterAck cfg chatId caller committed
  | .noticeFinally chatId uid =>
    s.updateEntries chatId (List.map fun tracked =>
      if tracked.uid = uid then { tracked with noticeSettleInFlight := false } else tracked)

/-! ## Notices -/

/-- The notice of a tracked delivery stays unposted: the chat waits for redelivery without asking for it. -/
def retainNoticeCustody (cfg : InboxDeliveryCoordinatorConfig) (s : InboxDeliveryCoordinator Key Payload) (chatId : Key)
    (uid : Nat) : InboxDeliveryCoordinator Key Payload :=
  let s := s.markRecoveryDebt cfg chatId false
  { s with resumable := s.resumable ++ [.noticeFinally chatId uid] }

/-- `settleNoticeRequiredRedelivery`, up to its await: the notice is posted before anything is settled. -/
def settleNoticeRequiredRedelivery (cfg : InboxDeliveryCoordinatorConfig) (s : InboxDeliveryCoordinator Key Payload) (chatId : Key)
    (tracked : TrackedDelivery Key Payload) : InboxDeliveryCoordinator Key Payload :=
  if ! tracked.requiresDurableNotice || tracked.noticeSettleInFlight then s
  else
    let s := s.updateEntries chatId (List.map fun e =>
      if e.uid = tracked.uid then { e with noticeSettleInFlight := true } else e)
    match tracked.durableNoticePayload, cfg.postRuntimeFailureNotice with
    | some payload, true =>
      { s with
        noticePosts := s.noticePosts ++ [{ chatId, uid := tracked.uid, entryId := tracked.entryId, payload }]
        calls := s.calls ++ [.postRuntimeFailureNotice chatId payload] }
    | _, _ => s.retainNoticeCustody cfg chatId tracked.uid

/-- `settleNoticeRequiredRedelivery` after the notice was posted. -/
def postNoticeResolved (s : InboxDeliveryCoordinator Key Payload) (post : NoticePost Key Payload) :
    InboxDeliveryCoordinator Key Payload :=
  let s := s.updateEntries post.chatId (List.map fun e =>
    if e.uid = post.uid then { e with requiresDurableNotice := false, durableNoticePayload := none, phase := .terminal } else e)
  s.ackThrough post.chatId post.entryId (.noticeRequiredRedelivery post.uid) true false

/-! ## Receiving -/

/-- The entry of a frame that is new to the ledger. -/
def newEntry (uid entryId : Nat) (messageId : Key) : TrackedDelivery Key Payload :=
  { uid, entryId, messageId, phase := .open, processingStarted := false, requiresDurableNotice := false,
    durableNoticePayload := none, noticeSettleInFlight := false, replayFencedWithheld := false }

/-- The entries in the order of their entry ids. -/
def sortEntries (entries : List (TrackedDelivery Key Payload)) : List (TrackedDelivery Key Payload) :=
  entries.insertionSort (·.entryId ≤ ·.entryId)

/-- A frame that is new to the ledger becomes an open entry. -/
def insertEntry (s : InboxDeliveryCoordinator Key Payload) (chatId : Key) (entryId : Nat) (messageId : Key) :
    InboxDeliveryCoordinator Key Payload :=
  let l := s.ledger chatId
  { s.setLedger chatId { l with entries := sortEntries (l.entries ++ [newEntry s.nextUid entryId messageId]) } with
    nextUid := s.nextUid + 1 }

/-- The chat of a frame. -/
def frameChat (entry : InboxEntryWithMessage Key) : Key := entry.chatId.getD entry.messageChatId

/-- A frame of an entry that the ledger holds. -/
def receiveActive (cfg : InboxDeliveryCoordinatorConfig) (s : InboxDeliveryCoordinator Key Payload) (chatId : Key)
    (work : DeliveryWork Key) (tracked : TrackedDelivery Key Payload) :
    DeliveryDecision Key × InboxDeliveryCoordinator Key Payload :=
  if tracked.replayFencedWithheld then
    (.deliver work, s.updateEntries chatId (List.map fun e =>
      if e.uid = tracked.uid then { e with replayFencedWithheld := false } else e))
  else if tracked.requiresDurableNotice then
    (.duplicateInFlight, s.settleNoticeRequiredRedelivery cfg chatId tracked)
  else if tracked.phase = .terminal then
    (.duplicateInFlight, s.ackThrough chatId tracked.entryId .redeliveryTerminalRetry true true)
  else (.duplicateInFlight, s)

/-- `receive`. -/
def receive (cfg : InboxDeliveryCoordinatorConfig) (s : InboxDeliveryCoordinator Key Payload) (entry : InboxEntryWithMessage Key) :
    DeliveryDecision Key × InboxDeliveryCoordinator Key Payload :=
  let chatId := frameChat entry
  let work : DeliveryWork Key := ⟨chatId, entry.id, entry.messageId⟩
  let l := s.ledger chatId
  let s := s.setLedger chatId l
  if l.recoveryDebt ≠ .none then (.recovering, s)
  else
    match s.findEntry chatId entry.id with
    | some tracked => receiveActive cfg s chatId work tracked
    | none =>
      if entry.messageId ∈ s.fenceSettledMessages chatId then (.duplicateInFlight, s)
      else
        let (duplicate, deduplicator) := s.deduplicator.isDuplicate (dedupKey chatId entry.messageId)
        let s := { s with deduplicator }
        if duplicate && l.entries.any (·.messageId = entry.messageId) then (.duplicateInFlight, s)
        else (.deliver work, s.insertEntry chatId entry.id entry.messageId)

/-! ## Turns and routes -/

/-- `runAdmission`: an operation joins the admission queue. -/
def runAdmission (s : InboxDeliveryCoordinator Key Payload) (chatId : Key) : InboxDeliveryCoordinator Key Payload :=
  s.setLedger chatId { s.ledger chatId with admissions := (s.ledger chatId).admissions + 1 }

/-- The next operation of the admission queue has settled. -/
def admissionSettled (s : InboxDeliveryCoordinator Key Payload) (chatId : Key) : InboxDeliveryCoordinator Key Payload :=
  match s.ledgers chatId with
  | none => s
  | some l =>
    let s := s.setLedger chatId { l with admissions := l.admissions - 1 }
    if l.admissions = 1 then s.cleanupLedger chatId else s

/-- `markReplayFenceWithheld`. -/
def markReplayFenceWithheld (s : InboxDeliveryCoordinator Key Payload) (chatId : Key) (messageIds : List Key) :
    InboxDeliveryCoordinator Key Payload :=
  s.updateEntries chatId (List.map fun tracked =>
    if tracked.messageId ∈ messageIds ∧ tracked.phase = .open ∧ tracked.processingStarted = false then
      { tracked with replayFencedWithheld := true }
    else tracked)

/-- `settleReplayFencedEntries`: the server proved these messages settled. -/
def settleReplayFencedEntries (s : InboxDeliveryCoordinator Key Payload) (chatId : Key) (messageIds : List Key) :
    InboxDeliveryCoordinator Key Payload :=
  ((s.markFenceSettled chatId messageIds).updateEntries chatId (List.filter fun tracked =>
    decide (tracked.messageId ∉ messageIds))).cleanupLedger chatId

/-- `markOwned`. -/
def markOwned (s : InboxDeliveryCoordinator Key Payload) (work : DeliveryWork Key) :
    DeliveryRouteOwnership × InboxDeliveryCoordinator Key Payload :=
  match s.findEntry work.chatId work.entryId with
  | none => (if s.recentlySettled.has (settledKey work) then .settled else .lost, s)
  | some tracked =>
    (.owned, s.updateEntries work.chatId (List.map fun e =>
      if e.uid = tracked.uid ∧ e.phase = .open then { e with phase := .owned } else e))

/-- `markProcessingStarted`. -/
def markProcessingStarted (s : InboxDeliveryCoordinator Key Payload) (chatId : Key) (messages : List (SessionMessage Key)) :
    InboxDeliveryCoordinator Key Payload :=
  s.updateEntries chatId (List.map fun tracked =>
    if tracked.entryId ∈ messageEntryIds chatId messages then
      { tracked with
        phase := if tracked.phase = .open then .owned else tracked.phase
        processingStarted := tracked.processingStarted || decide (tracked.phase ≠ .terminal) }
    else tracked)

/-- `markTerminal`: the turn is over, and whatever notice it owed was posted. -/
def markTerminal (s : InboxDeliveryCoordinator Key Payload) (chatId : Key) (messages : List (SessionMessage Key)) :
    InboxDeliveryCoordinator Key Payload :=
  s.updateEntries chatId (List.map fun tracked =>
    if tracked.entryId ∈ messageEntryIds chatId messages then
      { tracked with phase := .terminal, requiresDurableNotice := false, durableNoticePayload := none }
    else tracked)

/-- A turn ends with its messages terminal and ACKed through the last of them. -/
def endTurn (s : InboxDeliveryCoordinator Key Payload) (chatId : Key) (messages : List (SessionMessage Key)) (caller : AckCaller) :
    InboxDeliveryCoordinator Key Payload :=
  match lastMessageEntryId chatId messages with
  | none => s
  | some throughEntryId => (s.markTerminal chatId messages).ackThrough chatId throughEntryId caller true true

/-- `finishTurn`, up to its await. -/
def finishTurn (s : InboxDeliveryCoordinator Key Payload) (chatId : Key) (messages : List (SessionMessage Key)) :
    InboxDeliveryCoordinator Key Payload :=
  if lastMessageEntryId chatId messages = none then { s with calls := s.calls ++ [.finishTurnReturned chatId false] }
  else s.endTurn chatId messages .finishTurn

/-- `terminalRejected`, up to its await. -/
def terminalRejected (s : InboxDeliveryCoordinator Key Payload) (chatId : Key) (messages : List (SessionMessage Key)) :
    InboxDeliveryCoordinator Key Payload :=
  s.endTurn chatId messages .terminalRejected

/-- Custody of a turn's messages is given back to the server. -/
def releaseTurn (cfg : InboxDeliveryCoordinatorConfig) (s : InboxDeliveryCoordinator Key Payload) (chatId : Key)
    (messages : List (SessionMessage Key)) (requestNow : Bool) : InboxDeliveryCoordinator Key Payload :=
  if (s.entriesOf chatId).any (·.entryId ∈ messageEntryIds chatId messages) then s.markRecoveryDebt cfg chatId requestNow else s

/-- `retryTurn`. -/
def retryTurn (cfg : InboxDeliveryCoordinatorConfig) (s : InboxDeliveryCoordinator Key Payload) (chatId : Key)
    (messages : List (SessionMessage Key)) : InboxDeliveryCoordinator Key Payload :=
  s.releaseTurn cfg chatId messages true

/-- `parkTurnForDeferredRecovery`. -/
def parkTurnForDeferredRecovery (cfg : InboxDeliveryCoordinatorConfig) (s : InboxDeliveryCoordinator Key Payload) (chatId : Key)
    (messages : List (SessionMessage Key)) : InboxDeliveryCoordinator Key Payload :=
  s.releaseTurn cfg chatId messages false

/-- `markNoticeRequired`. -/
def markNoticeRequired (s : InboxDeliveryCoordinator Key Payload) (chatId : Key) (messages : List (SessionMessage Key))
    (payload : Option Payload) : InboxDeliveryCoordinator Key Payload :=
  s.updateEntries chatId (List.map fun tracked =>
    if tracked.entryId ∈ messageEntryIds chatId messages then
      { tracked with requiresDurableNotice := true, durableNoticePayload := payload.or tracked.durableNoticePayload }
    else tracked)

/-- The walk of `markNoticeRequiredForProcessingPrefix`: terminals are passed over, started deliveries marked, and the first other
entry ends it. -/
def markProcessingPrefix (payload : Payload) :
    List (TrackedDelivery Key Payload) → List (TrackedDelivery Key Payload)
  | [] => []
  | tracked :: rest =>
    if tracked.phase = .terminal then tracked :: markProcessingPrefix payload rest
    else if tracked.phase = .owned ∧ tracked.processingStarted then
      { tracked with requiresDurableNotice := true, durableNoticePayload := some payload } :: markProcessingPrefix payload rest
    else tracked :: rest

/-- `markNoticeRequiredForProcessingPrefix`. -/
def markNoticeRequiredForProcessingPrefix (s : InboxDeliveryCoordinator Key Payload) (chatId : Key) (payload : Payload) :
    InboxDeliveryCoordinator Key Payload :=
  s.updateEntries chatId (markProcessingPrefix payload)

/-! ## Suspension, eviction and termination -/

/-- ACK the entries of a terminal prefix before the rest is given back; `prefixEntries` are those entries. An empty prefix leaves
only the rest. -/
def ackPrefixThenRelease (cfg : InboxDeliveryCoordinatorConfig) (s : InboxDeliveryCoordinator Key Payload) (chatId : Key)
    (prefixEntries : List (TrackedDelivery Key Payload)) (caller : AckCaller) (requestRecoveryOnAckFailure : Bool) :
    InboxDeliveryCoordinator Key Payload :=
  match prefixEntries.getLast? with
  | none => s.afterAck cfg chatId caller false
  | some last => s.ackThrough chatId last.entryId caller true requestRecoveryOnAckFailure

/-- The terminal prefix of a ledger. -/
def terminalPrefix (entries : List (TrackedDelivery Key Payload)) : List (TrackedDelivery Key Payload) :=
  entries.takeWhile (·.phase = .terminal)

/-- `prepareSuspend`, up to its first await. -/
def prepareSuspend (cfg : InboxDeliveryCoordinatorConfig) (s : InboxDeliveryCoordinator Key Payload) (chatId : Key) :
    InboxDeliveryCoordinator Key Payload :=
  if (s.entriesOf chatId).isEmpty then s
  else s.ackPrefixThenRelease cfg chatId (terminalPrefix (s.entriesOf chatId)) .prepareSuspend true

/-- The walk of `prepareOperatorSuspend`: terminals that owe no notice and started deliveries resolve, the first other entry ends
it. -/
def resolvePrefix : List (TrackedDelivery Key Payload) →
    List (TrackedDelivery Key Payload) × List (TrackedDelivery Key Payload)
  | [] => ([], [])
  | tracked :: rest =>
    if tracked.phase = .terminal ∧ tracked.requiresDurableNotice = false then
      (tracked :: (resolvePrefix rest).1, (resolvePrefix rest).2)
    else if tracked.requiresDurableNotice then ([], tracked :: rest)
    else if tracked.phase = .owned ∧ tracked.processingStarted then
      ({ tracked with phase := .terminal } :: (resolvePrefix rest).1, (resolvePrefix rest).2)
    else ([], tracked :: rest)

/-- `prepareOperatorSuspend`, up to its first await. -/
def prepareOperatorSuspend (cfg : InboxDeliveryCoordinatorConfig) (s : InboxDeliveryCoordinator Key Payload) (chatId : Key) :
    InboxDeliveryCoordinator Key Payload :=
  if (s.entriesOf chatId).isEmpty then s
  else
    let resolved := resolvePrefix (s.entriesOf chatId)
    (s.updateEntries chatId fun _ => resolved.1 ++ resolved.2).ackPrefixThenRelease cfg chatId resolved.1 .prepareOperatorSuspend
      false

/-- `prepareEvict`. -/
def prepareEvict (cfg : InboxDeliveryCoordinatorConfig) (s : InboxDeliveryCoordinator Key Payload) (chatId : Key) :
    InboxDeliveryCoordinator Key Payload :=
  if (s.entriesOf chatId).isEmpty then s else s.markRecoveryDebt cfg chatId true

/-- `drainForTerminate`, up to its first await. -/
def drainForTerminate (cfg : InboxDeliveryCoordinatorConfig) (s : InboxDeliveryCoordinator Key Payload) (chatId : Key)
    (requestNow : Bool) : InboxDeliveryCoordinator Key Payload :=
  if (s.entriesOf chatId).isEmpty then s
  else s.ackPrefixThenRelease cfg chatId (terminalPrefix (s.entriesOf chatId)) (.drainForTerminate requestNow) true

/-! ## Steps -/

/-- A call of the coordinator, or the scheduler's next move: a promise that settles or a continuation that resumes. Notices and
continuations are named by their position. -/
inductive Op (Key Payload : Type) where
  | receive (entry : InboxEntryWithMessage Key)
  | takeRecoveryActivationReady (chatId : Key)
  | recoverIfNeeded (chatId : Key)
  | reconcileAckSettlement (chatId : Key)
  | runAdmission (chatId : Key)
  | admissionSettled (chatId : Key)
  | markReplayFenceWithheld (chatId : Key) (messageIds : List Key)
  | markFenceSettled (chatId : Key) (messageIds : List Key)
  | settleReplayFencedEntries (chatId : Key) (messageIds : List Key)
  | markOwned (work : DeliveryWork Key)
  | markProcessingStarted (chatId : Key) (messages : List (SessionMessage Key))
  | finishTurn (chatId : Key) (messages : List (SessionMessage Key))
  | terminalRejected (chatId : Key) (messages : List (SessionMessage Key))
  | retryTurn (chatId : Key) (messages : List (SessionMessage Key))
  | parkTurnForDeferredRecovery (chatId : Key) (messages : List (SessionMessage Key))
  | completeBindRecovery (chatId : Key)
  | markNoticeRequired (chatId : Key) (messages : List (SessionMessage Key)) (payload : Option Payload)
  | markNoticeRequiredForProcessingPrefix (chatId : Key) (payload : Payload)
  | prepareSuspend (chatId : Key)
  | prepareOperatorSuspend (chatId : Key)
  | prepareEvict (chatId : Key)
  | drainForTerminate (chatId : Key) (requestNow : Bool)
  | ackThroughNow (chatId : Key)
  | ackEntryResolved (chatId : Key)
  | ackEntryRejected (chatId : Key)
  | ackUnblocked (chatId : Key)
  | recoverChatResolved (chatId : Key) (unackedOutstanding : Option Nat)
  | recoverChatRejected (chatId : Key)
  | recoverChatFinally (chatId : Key)
  | postNoticeResolved (i : Nat)
  | postNoticeRejected (i : Nat)
  | resume (i : Nat)

/-- The first ACK of a chain takes its next step, if it is at a point that this step continues. -/
def stepAck (cfg : InboxDeliveryCoordinatorConfig) (s : InboxDeliveryCoordinator Key Payload) (chatId : Key)
    (op : Op Key Payload) : Option (InboxDeliveryCoordinator Key Payload) :=
  match s.pendingAcks chatId with
  | [] => none
  | job :: _ =>
    match job.stage, op with
    | .queued, .ackThroughNow _ => some (s.ackThroughNow cfg chatId job)
    | .sending pre, .ackEntryResolved _ => some (s.ackEntryResolved chatId job pre)
    | .sending _, .ackEntryRejected _ => some (s.ackEntryRejected cfg chatId job)
    | .blocked recovery, .ackUnblocked _ =>
      if recovery.isSome ∧ (s.recoveringChats chatId).map (·.number) = recovery then none else some (s.settleAck chatId job false)
    | _, _ => none

/-- Whether the request of the chat's recovery was answered, when one runs. -/
def recoveryAnswered (s : InboxDeliveryCoordinator Key Payload) (chatId : Key) : Option Bool :=
  (s.recoveringChats chatId).map (·.answered)

/-- What an operation leads to; none where it cannot happen. -/
def step (cfg : InboxDeliveryCoordinatorConfig) (s : InboxDeliveryCoordinator Key Payload) (op : Op Key Payload) :
    Option (InboxDeliveryCoordinator Key Payload) :=
  match op with
  | .receive entry => some (s.receive cfg entry).2
  | .takeRecoveryActivationReady chatId => some (s.takeRecoveryActivationReady chatId).2
  | .recoverIfNeeded chatId => some (s.requestRecovery cfg chatId)
  | .reconcileAckSettlement chatId => some (s.reconcileAckSettlement cfg chatId)
  | .runAdmission chatId => some (s.runAdmission chatId)
  | .admissionSettled chatId => some (s.admissionSettled chatId)
  | .markReplayFenceWithheld chatId messageIds => some (s.markReplayFenceWithheld chatId messageIds)
  | .markFenceSettled chatId messageIds => some (s.markFenceSettled chatId messageIds)
  | .settleReplayFencedEntries chatId messageIds => some (s.settleReplayFencedEntries chatId messageIds)
  | .markOwned work => some (s.markOwned work).2
  | .markProcessingStarted chatId messages => some (s.markProcessingStarted chatId messages)
  | .finishTurn chatId messages => some (s.finishTurn chatId messages)
  | .terminalRejected chatId messages => some (s.terminalRejected chatId messages)
  | .retryTurn chatId messages => some (s.retryTurn cfg chatId messages)
  | .parkTurnForDeferredRecovery chatId messages => some (s.parkTurnForDeferredRecovery cfg chatId messages)
  | .completeBindRecovery chatId => some (s.completeBindRecovery chatId)
  | .markNoticeRequired chatId messages payload => some (s.markNoticeRequired chatId messages payload)
  | .markNoticeRequiredForProcessingPrefix chatId payload => some (s.markNoticeRequiredForProcessingPrefix chatId payload)
  | .prepareSuspend chatId => some (s.prepareSuspend cfg chatId)
  | .prepareOperatorSuspend chatId => some (s.prepareOperatorSuspend cfg chatId)
  | .prepareEvict chatId => some (s.prepareEvict cfg chatId)
  | .drainForTerminate chatId requestNow => some (s.drainForTerminate cfg chatId requestNow)
  | .ackThroughNow chatId => s.stepAck cfg chatId op
  | .ackEntryResolved chatId => s.stepAck cfg chatId op
  | .ackEntryRejected chatId => s.stepAck cfg chatId op
  | .ackUnblocked chatId => s.stepAck cfg chatId op
  | .recoverChatResolved chatId unackedOutstanding =>
    if s.recoveryAnswered chatId = some false then some (s.recoverChatResolved chatId unackedOutstanding) else none
  | .recoverChatRejected chatId =>
    if s.recoveryAnswered chatId = some false then some (s.recoverChatRejected chatId) else none
  | .recoverChatFinally chatId => if s.recoveryAnswered chatId = some true then some (s.recoverChatFinally chatId) else none
  | .postNoticeResolved i =>
    s.noticePosts[i]?.map fun post => { s with noticePosts := s.noticePosts.eraseIdx i }.postNoticeResolved post
  | .postNoticeRejected i =>
    s.noticePosts[i]?.map fun post =>
      { s with noticePosts := s.noticePosts.eraseIdx i }.retainNoticeCustody cfg post.chatId post.uid
  | .resume i =>
    s.resumable[i]?.map fun continuation => { s with resumable := s.resumable.eraseIdx i }.resume cfg continuation

end InboxDeliveryCoordinator

end FirstTree
