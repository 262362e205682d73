import FirstTree.Lib.Transactions
import FirstTree.Server.AgentRuntime

/-!
# Runtime switches next to the lifecycle calls

Any number of calls of `switchAgentRuntime`, `recoverAgentRuntimeSwitch`, `suspendAgent`, `reactivateAgent` and `deleteAgent` on one
agent. A step of a call runs one statement or one transaction; between two steps the other calls, the agent's connections and its
sessions move as they like, and a call can crash. What the reads after the last write return is left out.
-/

namespace FirstTree

open Transactions AgentRuntime

/-- `RuntimeSwitchFault`. -/
inductive RuntimeSwitchFault where
  | afterClaim
  | afterCommit
  | afterSessions
  | afterReactivate
  deriving DecidableEq

/-- The route of an agent, its provider and its status. -/
structure SwitchRoute where
  clientId : Option String
  runtimeProvider : String
  status : AgentStatus
  deriving DecidableEq

/-- What a step did: a claim is recorded over a route, committed, aborted into a route or cleared; a call that held a claim
disconnects the agent, sets it offline or evicts its sessions; a switch fails before its commit; the agent is deleted. -/
inductive SwitchEvent where
  | claimed (claimId : String) (route : SwitchRoute)
  | committed (claimId : String)
  | aborted (claimId : String) (route : SwitchRoute)
  | cleared (claimId : String)
  | disconnected (claimId : String)
  | offline (claimId : String)
  | evicted (claimId : String)
  | failed (claimId : String)
  | deleted
  deriving DecidableEq

/-- The agent's row, the client it is connected through, its presence, its sessions that are not evicted, the claim ids minted and
what has happened. -/
structure SwitchStore where
  row : AgentRow
  liveClient : Option String
  online : Bool
  openSessions : List String
  issuedClaims : List String
  history : List SwitchEvent

/-- The statement a call runs next. -/
inductive SwitchStatement where
  | switchRead (input : SwitchAgentRuntimeInput)
  | switchCheck (input : SwitchAgentRuntimeInput) (current : AgentRow)
  | switchClaim (current : AgentRow) (claim : RuntimeSwitchClaim)
  | switchCommit (claim : RuntimeSwitchClaim)
  | switchAbort (claim : RuntimeSwitchClaim)
  | detachRevoke (claim : RuntimeSwitchClaim)
  | detachDisconnect (claim : RuntimeSwitchClaim)
  | detachOffline (claim : RuntimeSwitchClaim)
  | archiveSessions (claim : RuntimeSwitchClaim)
  | reactivateClaim (claim : RuntimeSwitchClaim)
  | recoverRead
  | recoverAbort (claim : RuntimeSwitchClaim)
  | suspendRead
  | suspendWrite
  | reactivateRead
  | reactivateWrite
  | deleteRead
  | deleteWrite

/-- An open call: its next statement and the fault it is asked to inject. -/
structure SwitchCall where
  next : SwitchStatement
  fault : Option RuntimeSwitchFault

/-- What a statement is answered about other tables: the reads of a switch, a fresh claim id and the time, whether the target client
is there and not retired, and whether the rest of the commit's transaction fails. -/
structure SwitchAnswers where
  reads : SwitchReads
  claimId : String
  claimedAt : String
  clientAvailable : Bool
  transactionFails : Bool

/-- The agent with the calls open on it. -/
abbrev SwitchSystem (Call : Type) := System SwitchStore Call SwitchCall

/-- What can happen: a call begins, runs its next statement or crashes, and the agent connects, disconnects or starts a session. -/
inductive SwitchOp (Call : Type) where
  | switchAgentRuntime (call : Call) (input : SwitchAgentRuntimeInput) (fault : Option RuntimeSwitchFault)
  | recoverAgentRuntimeSwitch (call : Call) (fault : Option RuntimeSwitchFault)
  | suspendAgent (call : Call)
  | reactivateAgent (call : Call)
  | deleteAgent (call : Call)
  | run (call : Call) (answers : SwitchAnswers)
  | crash (call : Call)
  | connects (clientId : String)
  | disconnects
  | sessionStarts (chatId : String)

namespace RuntimeSwitch

/-- The route of a row. -/
def routeOf (row : AgentRow) : SwitchRoute := ⟨row.clientId, row.runtimeProvider, row.status⟩

variable (text : JsonText)

/-- The store after an update that says what it did. -/
def wrote (store : SwitchStore) (row : AgentRow) (events : List SwitchEvent) : SwitchStore :=
  { store with row := row, history := store.history ++ events }

/-- The statement after `detachOldRuntimeAfterCommittedRoute`. -/
def afterDetach (fault : Option RuntimeSwitchFault) (claim : RuntimeSwitchClaim) : Option SwitchStatement :=
  if fault = some .afterCommit then none else some (.archiveSessions claim)

/-- `detachOldRuntimeAfterCommittedRoute` begins. -/
def detachOldRuntimeAfterCommittedRoute (fault : Option RuntimeSwitchFault) (claim : RuntimeSwitchClaim) : Option SwitchStatement :=
  if claim.oldClientId = "" then afterDetach fault claim else some (.detachRevoke claim)

/-- A lifecycle call goes on to its write when its checks pass. -/
def afterCheck (write : SwitchStatement) : Except ServiceError Unit → Option SwitchStatement
  | .ok _ => some write
  | .error _ => none

/-- `archiveAllSessionsForAgent` is let through by its claim. -/
def archiveAllowed (row : AgentRow) (claim : RuntimeSwitchClaim) : Prop :=
  claim.claimId = "" ∨ holdsClaim text row claim.claimId .committed

instance (row : AgentRow) (claim : RuntimeSwitchClaim) : Decidable (archiveAllowed text row claim) :=
  inferInstanceAs (Decidable (_ ∨ _))

/-- The next statement of a call, and the call's statement after it when it goes on. -/
def runStatement (store : SwitchStore) (fault : Option RuntimeSwitchFault) (answers : SwitchAnswers) :
    SwitchStatement → SwitchStore × Option SwitchStatement
  | .switchRead input => (store, afterCheck (.switchCheck input store.row) (checkCurrentRuntime store.row input))
  | .switchCheck input current =>
    match checkSwitchTarget current input answers.reads with
    | .ok _ =>
      ({ store with issuedClaims := answers.claimId :: store.issuedClaims },
        some (.switchClaim current (newClaim current input answers.claimId answers.claimedAt)))
    | .error _ => (store, none)
  | .switchClaim current claim =>
    match claimRuntimeSwitch current claim store.row with
    | some row =>
      (wrote store row [.claimed claim.claimId (routeOf store.row)],
        some (if fault = some .afterClaim then .switchAbort claim else .switchCommit claim))
    | none => (store, none)
  | .switchCommit claim =>
    match if answers.transactionFails then none else commitRuntimeSwitch text claim answers.clientAvailable store.row with
    | some row => (wrote store row [.committed claim.claimId], detachOldRuntimeAfterCommittedRoute fault claim)
    | none => (store, some (.switchAbort claim))
  | .switchAbort claim =>
    match abortRuntimeSwitchClaim text claim store.row with
    | some row => (wrote store row [.aborted claim.claimId (routeOf row), .failed claim.claimId], none)
    | none => (wrote store store.row [.failed claim.claimId], none)
  | .detachRevoke claim =>
    ({ store with row := (revokeAgentRuntimeSession store.row (some claim.oldClientId)).getD store.row },
      some (.detachDisconnect claim))
  | .detachDisconnect claim =>
    (if store.liveClient = some claim.oldClientId then
      { store with liveClient := none, history := store.history ++ [.disconnected claim.claimId] }
    else store, some (.detachOffline claim))
  | .detachOffline claim =>
    ({ store with online := false, history := store.history ++ [.offline claim.claimId] }, afterDetach fault claim)
  | .archiveSessions claim =>
    if archiveAllowed text store.row claim then
      ({ store with openSessions := [], history := store.history ++ [.evicted claim.claimId] },
        if fault = some .afterSessions then none else some (.reactivateClaim claim))
    else (store, none)
  | .reactivateClaim claim =>
    match reactivateCommittedRuntimeSwitch text claim store.row with
    | some row => (wrote store row [.cleared claim.claimId], none)
    | none => (store, none)
  | .recoverRead =>
    match readRecoveryClaim store.row with
    | .ok claim =>
      (store, match claim.phase with
        | .claimed => some (.recoverAbort claim)
        | .committed => detachOldRuntimeAfterCommittedRoute fault claim)
    | .error _ => (store, none)
  | .recoverAbort claim =>
    match abortRuntimeSwitchClaim text claim store.row with
    | some row => (wrote store row [.aborted claim.claimId (routeOf row)], none)
    | none => (store, none)
  | .suspendRead => (store, afterCheck .suspendWrite (checkSuspend store.row))
  | .suspendWrite => (wrote store (writeStatus .suspended store.row) [], none)
  | .reactivateRead => (store, afterCheck .reactivateWrite (checkReactivate store.row))
  | .reactivateWrite => (wrote store (writeStatus .active store.row) [], none)
  | .deleteRead => (store, afterCheck .deleteWrite (checkDelete store.row))
  | .deleteWrite => (wrote store (writeStatus .deleted store.row) [.deleted], none)

/-! ## Steps -/

variable {Call : Type} [DecidableEq Call]

/-- A call of a name that is not in use begins. -/
def begin (s : SwitchSystem Call) (call : Call) (next : SwitchStatement) (fault : Option RuntimeSwitchFault) :
    Option (SwitchSystem Call) :=
  if (s.find call).isNone then some (s.put s.store call (some ⟨next, fault⟩)) else none

/-- One step. A minted claim id is fresh. -/
def step (s : SwitchSystem Call) : SwitchOp Call → Option (SwitchSystem Call)
  | .switchAgentRuntime call input fault => begin s call (.switchRead input) fault
  | .recoverAgentRuntimeSwitch call fault => begin s call .recoverRead fault
  | .suspendAgent call => begin s call .suspendRead none
  | .reactivateAgent call => begin s call .reactivateRead none
  | .deleteAgent call => begin s call .deleteRead none
  | .run call answers => (s.find call).bind fun open_ =>
      if answers.claimId ∈ s.store.issuedClaims ∨ answers.claimId = "" then none
      else
        let ran := runStatement text s.store open_.fault answers open_.next
        some (s.put ran.1 call (ran.2.map fun next => ⟨next, open_.fault⟩))
  | .crash call => (s.find call).map fun _ => s.put s.store call none
  | .connects clientId => some { s with store := { s.store with liveClient := some clientId, online := true } }
  | .disconnects => some { s with store := { s.store with liveClient := none, online := false } }
  | .sessionStarts chatId => some { s with store := { s.store with openSessions := chatId :: s.store.openSessions } }

end RuntimeSwitch

end FirstTree
