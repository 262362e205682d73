import FirstTree.Shared.Message

/-!
# The runtime route of an agent

The row of one agent in `agents` and the statements that write its route, its status, its runtime session and its runtime switch. An
`UPDATE` is the row after it, or none when its `WHERE` matches no row. The other columns, the times of the updates and the config
that a switch retags are left out; the answers about other tables are given.
-/

namespace FirstTree

/-- The errors the services throw. -/
inductive ServiceError where
  | badRequest (message : String)
  | forbidden (message : String)
  | notFound (message : String)
  | conflict (message : String)
  | clientRetired (message : String)
  | unexpected (message : String)

/-- The row of an agent. The type is human or not. -/
structure AgentRow where
  uuid : String
  isHuman : Bool
  status : AgentStatus
  clientId : Option String
  runtimeProvider : String
  managerId : String
  metadata : Metadata

/-- The hash of a runtime session token. -/
structure TokenHash where
  hash : String → String
  injective : Function.Injective hash

/-- The binding stored under `runtimeSession`. -/
structure AgentRuntimeSessionMetadata where
  clientId : String
  tokenHash : String
  boundAt : String
  deriving DecidableEq

/-- `RuntimeSwitchPhase`. -/
inductive RuntimeSwitchPhase where
  | claimed
  | committed
  deriving DecidableEq

/-- A `RuntimeSwitchClaim`. The old client is empty when the agent had none. -/
structure RuntimeSwitchClaim where
  claimId : String
  phase : RuntimeSwitchPhase
  claimedAt : String
  claimedByUserId : String
  claimedByMemberId : String
  oldClientId : String
  oldRuntimeProvider : String
  targetClientId : String
  targetRuntimeProvider : String
  deriving DecidableEq

/-- A `SwitchAgentRuntimeInput` and its actor. -/
structure SwitchAgentRuntimeInput where
  clientId : String
  runtimeProvider : String
  userId : String
  memberId : String

/-- The target's row in `clients`: its owner, and whether it is retired and runs a version that can switch. -/
structure TargetClientRow where
  userId : Option String
  retired : Bool
  supportsRuntimeSwitch : Bool

/-- What a switch reads of other tables: the manager's user and status, the target client, whether the provider is enabled, and what
`ensureClientSupportsRuntimeProvider` throws. -/
structure SwitchReads where
  manager : Option (String × String)
  targetClient : Option TargetClientRow
  runtimeProviderEnabled : Bool
  providerSupport : Except ServiceError Unit

namespace AgentRuntime

/-- Refuse a call that meets a condition. -/
def refuse (condition : Prop) [Decidable condition] (error : ServiceError) : Except ServiceError Unit :=
  if condition then .error error else .ok ()

/-- A check that passes found its condition false. -/
theorem refuse_bind_ok {condition : Prop} [Decidable condition] {error : ServiceError} {β : Type} {f : Unit → Except ServiceError β}
    {b : β} (h : (refuse condition error >>= f) = .ok b) : ¬ condition ∧ f () = .ok b := by
  unfold refuse at h
  split at h
  · cases h
  · next hc => exact ⟨hc, h⟩

variable (text : JsonText)

/-- `metadata -> key ->> field`. -/
def textAt (metadata : Metadata) (key field : String) : Option String :=
  ((metadata.lookup key).bind (Json.field? field)).bind text.read

/-! ## Runtime sessions -/

/-- `AGENT_RUNTIME_SESSION_METADATA_KEY`. -/
def runtimeSessionKey : String := "runtimeSession"

/-- The stored form of a binding. -/
def AgentRuntimeSessionMetadata.toJson (binding : AgentRuntimeSessionMetadata) : Json :=
  .obj [("clientId", .str binding.clientId), ("tokenHash", .str binding.tokenHash), ("boundAt", .str binding.boundAt)]

/-- `getAgentRuntimeSessionMetadata`. -/
def getAgentRuntimeSessionMetadata (metadata : Metadata) : Option AgentRuntimeSessionMetadata := do
  let value ← metadata.lookup runtimeSessionKey
  let clientId ← (value.field? "clientId").bind Json.string?
  let tokenHash ← (value.field? "tokenHash").bind Json.string?
  let boundAt ← (value.field? "boundAt").bind Json.string?
  pure ⟨clientId, tokenHash, boundAt⟩

/-- The row runs on a client that exists and is not retired. -/
def runsOn (row : AgentRow) (clientId : String) (clientAvailable : Bool) : Bool :=
  decide (row.clientId = some clientId) && decide (row.status = .active) && clientAvailable

/-- `bindAgentRuntimeSession`, with the token it mints. -/
def bindAgentRuntimeSession (hash : TokenHash) (row : AgentRow) (clientId token boundAt : String) (clientAvailable : Bool) :
    Except ServiceError (String × AgentRow) :=
  if runsOn row clientId clientAvailable then
    .ok (token, { row with
      metadata := row.metadata.insert runtimeSessionKey (AgentRuntimeSessionMetadata.toJson ⟨clientId, hash.hash token, boundAt⟩) })
  else .error (.unexpected ("Agent \"" ++ row.uuid ++ "\" is no longer active on client \"" ++ clientId ++ "\""))

/-- `revokeAgentRuntimeSession`. -/
def revokeAgentRuntimeSession (row : AgentRow) (expectedClientId : Option String) : Option AgentRow :=
  if expectedClientId = none ∨ row.clientId = expectedClientId then some { row with metadata := row.metadata.erase runtimeSessionKey }
  else none

/-- `revokeAgentRuntimeSessionIfTokenMatches`. -/
def revokeAgentRuntimeSessionIfTokenMatches (hash : TokenHash) (row : AgentRow) (clientId token : String) : Option AgentRow :=
  if row.clientId = some clientId ∧ textAt text row.metadata runtimeSessionKey "clientId" = some clientId ∧
      textAt text row.metadata runtimeSessionKey "tokenHash" = some (hash.hash token) then
    some { row with metadata := row.metadata.erase runtimeSessionKey }
  else none

/-- `validateAgentRuntimeSession`. -/
def validateAgentRuntimeSession (hash : TokenHash) (row : AgentRow) (clientId token : String) (clientAvailable : Bool) : Bool :=
  if runsOn row clientId clientAvailable then
    match getAgentRuntimeSessionMetadata row.metadata with
    | some binding => decide (binding.clientId = clientId) && decide (binding.tokenHash = hash.hash token)
    | none => false
  else false

/-! ## Runtime switches -/

/-- The metadata key of a claim. -/
def runtimeSwitchKey : String := "runtimeSwitch"

/-- The name of a phase. -/
def phaseName : RuntimeSwitchPhase → String
  | .claimed => "claimed"
  | .committed => "committed"

/-- The phase of a name. -/
def parsePhase (name : String) : Option RuntimeSwitchPhase :=
  if name = "claimed" then some .claimed else if name = "committed" then some .committed else none

/-- The stored form of a claim. -/
def RuntimeSwitchClaim.toJson (claim : RuntimeSwitchClaim) : Json :=
  .obj [("claimId", .str claim.claimId), ("phase", .str (phaseName claim.phase)), ("claimedAt", .str claim.claimedAt),
    ("claimedByUserId", .str claim.claimedByUserId), ("claimedByMemberId", .str claim.claimedByMemberId),
    ("oldClientId", .str claim.oldClientId), ("oldRuntimeProvider", .str claim.oldRuntimeProvider),
    ("targetClientId", .str claim.targetClientId), ("targetRuntimeProvider", .str claim.targetRuntimeProvider)]

/-- `getRuntimeSwitchClaim`. -/
def getRuntimeSwitchClaim (metadata : Metadata) : Option RuntimeSwitchClaim := do
  let claim ← metadata.lookup runtimeSwitchKey
  let claimId ← (claim.field? "claimId").bind Json.string?
  let phase ← ((claim.field? "phase").bind Json.string?).bind parsePhase
  let claimedAt ← (claim.field? "claimedAt").bind Json.string?
  let claimedByUserId ← (claim.field? "claimedByUserId").bind Json.string?
  let claimedByMemberId ← (claim.field? "claimedByMemberId").bind Json.string?
  let oldClientId ← (claim.field? "oldClientId").bind Json.string?
  let oldRuntimeProvider ← (claim.field? "oldRuntimeProvider").bind Json.string?
  let targetClientId ← (claim.field? "targetClientId").bind Json.string?
  let targetRuntimeProvider ← (claim.field? "targetRuntimeProvider").bind Json.string?
  pure
    { claimId := claimId, phase := phase, claimedAt := claimedAt, claimedByUserId := claimedByUserId
      claimedByMemberId := claimedByMemberId, oldClientId := oldClientId, oldRuntimeProvider := oldRuntimeProvider
      targetClientId := targetClientId, targetRuntimeProvider := targetRuntimeProvider }

/-- `readRuntimeSwitchClaimId`. -/
def readRuntimeSwitchClaimId (metadata : Metadata) : Option String :=
  ((metadata.lookup runtimeSwitchKey).bind (Json.field? "claimId")).bind Json.string?

/-- `assertNoRuntimeSwitchInProgress`. -/
def assertNoRuntimeSwitchInProgress (metadata : Metadata) : Except ServiceError Unit :=
  refuse ((metadata.lookup runtimeSwitchKey).isSome = true)
    (match readRuntimeSwitchClaimId metadata with
    | some claimId =>
      .conflict (if claimId ≠ "" then "Agent runtime switch \"" ++ claimId ++ "\" is in progress"
        else "Agent runtime switch is in progress")
    | none => .conflict "Agent runtime switch is in progress")

/-- `oldClientCondition`. -/
def oldClientCondition (row : AgentRow) (oldClientId : String) : Prop :=
  if oldClientId ≠ "" then row.clientId = some oldClientId else row.clientId = none

instance (row : AgentRow) (oldClientId : String) : Decidable (oldClientCondition row oldClientId) :=
  inferInstanceAs (Decidable (if oldClientId ≠ "" then row.clientId = some oldClientId else row.clientId = none))

/-- The row holds the claim of an id in a phase. -/
def holdsClaim (row : AgentRow) (claimId : String) (phase : RuntimeSwitchPhase) : Prop :=
  textAt text row.metadata runtimeSwitchKey "claimId" = some claimId ∧
    textAt text row.metadata runtimeSwitchKey "phase" = some (phaseName phase)

instance (row : AgentRow) (claimId : String) (phase : RuntimeSwitchPhase) : Decidable (holdsClaim text row claimId phase) :=
  inferInstanceAs (Decidable (_ ∧ _))

/-- The checks of `switchAgentRuntime` on the row it has read. -/
def checkCurrentRuntime (current : AgentRow) (input : SwitchAgentRuntimeInput) : Except ServiceError Unit := do
  refuse (current.status = .deleted) (.notFound ("Agent \"" ++ current.uuid ++ "\" not found"))
  refuse (current.isHuman = true) (.badRequest "Human agents do not have a runtime to switch")
  refuse (¬ (current.status = .active ∧ current.clientId.getD "" ≠ "") ∧
    ¬ (current.status = .suspended ∧ current.clientId.getD "" = ""))
    (.badRequest "Only active agents or suspended agents without a computer can switch runtime")
  assertNoRuntimeSwitchInProgress current.metadata
  refuse (current.clientId.getD "" ≠ "" ∧ input.clientId = current.clientId.getD "" ∧ input.runtimeProvider = current.runtimeProvider)
    (.badRequest "Target computer and runtime match the agent's current configuration")

/-- The checks of `switchAgentRuntime` on the target. -/
def checkSwitchTarget (current : AgentRow) (input : SwitchAgentRuntimeInput) (reads : SwitchReads) : Except ServiceError Unit := do
  let managerUserId ← match reads.manager with
    | some (userId, "active") => pure userId
    | _ => .error (.badRequest ("Manager \"" ++ current.managerId ++ "\" not found"))
  let target ← match reads.targetClient with
    | some target => pure target
    | none => .error (.badRequest ("Client \"" ++ input.clientId ++ "\" not found"))
  refuse (target.userId.getD "" = "") (.badRequest ("Client \"" ++ input.clientId ++ "\" has not been claimed by a user yet"))
  refuse (target.userId ≠ some managerUserId)
    (.forbidden ("Client \"" ++ input.clientId ++ "\" is not owned by the agent manager's user"))
  refuse (target.retired = true) (.clientRetired ("Client \"" ++ input.clientId ++ "\" has been retired"))
  refuse (target.supportsRuntimeSwitch = false)
    (.badRequest "Target client must run First Tree CLI 0.5.12 or newer before switching runtimes.")
  refuse (reads.runtimeProviderEnabled = false) (.badRequest
    ("Runtime provider \"" ++ input.runtimeProvider ++ "\" is disabled for new selection until release acceptance."))
  reads.providerSupport

/-- The claim a switch is going to record. -/
def newClaim (current : AgentRow) (input : SwitchAgentRuntimeInput) (claimId claimedAt : String) : RuntimeSwitchClaim :=
  { claimId := claimId, phase := .claimed, claimedAt := claimedAt, claimedByUserId := input.userId,
    claimedByMemberId := input.memberId
    oldClientId := current.clientId.getD "", oldRuntimeProvider := current.runtimeProvider, targetClientId := input.clientId
    targetRuntimeProvider := input.runtimeProvider }

/-- The statement that records a claim. -/
def claimRuntimeSwitch (current : AgentRow) (claim : RuntimeSwitchClaim) (row : AgentRow) : Option AgentRow :=
  if row.status = current.status ∧ oldClientCondition row claim.oldClientId ∧ row.runtimeProvider = claim.oldRuntimeProvider ∧
      row.metadata.lookup runtimeSwitchKey = none then
    some { row with status := .suspended, metadata := row.metadata.insert runtimeSwitchKey (RuntimeSwitchClaim.toJson claim) }
  else none

/-- The statement that moves the route to the target. -/
def commitRuntimeSwitch (claim : RuntimeSwitchClaim) (clientAvailable : Bool) (row : AgentRow) : Option AgentRow :=
  if row.status = .suspended ∧ oldClientCondition row claim.oldClientId ∧ row.runtimeProvider = claim.oldRuntimeProvider ∧
      holdsClaim text row claim.claimId .claimed ∧ clientAvailable = true then
    some { row with
      clientId := some claim.targetClientId, runtimeProvider := claim.targetRuntimeProvider
      metadata := row.metadata.insert runtimeSwitchKey (RuntimeSwitchClaim.toJson { claim with phase := .committed }) }
  else none

/-- `abortRuntimeSwitchClaim`. -/
def abortRuntimeSwitchClaim (claim : RuntimeSwitchClaim) (row : AgentRow) : Option AgentRow :=
  if oldClientCondition row claim.oldClientId ∧ row.runtimeProvider = claim.oldRuntimeProvider ∧
      holdsClaim text row claim.claimId .claimed then
    some { row with
      status := if claim.oldClientId ≠ "" then .active else .suspended
      metadata := row.metadata.erase runtimeSwitchKey }
  else none

/-- `reactivateCommittedRuntimeSwitch`. -/
def reactivateCommittedRuntimeSwitch (claim : RuntimeSwitchClaim) (row : AgentRow) : Option AgentRow :=
  if row.status = .suspended ∧ row.clientId = some claim.targetClientId ∧ row.runtimeProvider = claim.targetRuntimeProvider ∧
      holdsClaim text row claim.claimId .committed then
    some { row with status := .active, metadata := row.metadata.erase runtimeSwitchKey }
  else none

/-- The claim `recoverAgentRuntimeSwitch` reads. -/
def readRecoveryClaim (current : AgentRow) : Except ServiceError RuntimeSwitchClaim := do
  refuse (current.status = .deleted) (.notFound ("Agent \"" ++ current.uuid ++ "\" not found"))
  refuse (current.metadata.lookup runtimeSwitchKey = none) (.badRequest "Agent has no runtime switch recovery state")
  match getRuntimeSwitchClaim current.metadata with
  | some claim => pure claim
  | none => .error (.conflict (match readRuntimeSwitchClaimId current.metadata with
    | some claimId =>
      if claimId ≠ "" then "Agent runtime switch \"" ++ claimId ++ "\" has malformed recovery state"
      else "Agent runtime switch recovery state is malformed"
    | none => "Agent runtime switch recovery state is malformed"))

/-! ## Suspending, reactivating and deleting -/

/-- `assertNonHumanLifecycleTarget`, after the check that the agent exists. -/
def checkLifecycleTarget (row : AgentRow) : Except ServiceError Unit := do
  refuse (row.status = .deleted) (.notFound ("Agent \"" ++ row.uuid ++ "\" not found"))
  refuse (row.isHuman = true) (.badRequest "Human agent lifecycle is managed by member leave/remove/restore.")

/-- The checks of `reactivateAgent`. -/
def checkReactivate (row : AgentRow) : Except ServiceError Unit := do
  checkLifecycleTarget row
  refuse (row.status ≠ .suspended) (.badRequest "Only suspended agents can be reactivated.")
  refuse (row.clientId = none) (.badRequest "Suspended agents without a runtime route must be recovered through runtime switch.")

/-- The checks of `suspendAgent`. -/
def checkSuspend (row : AgentRow) : Except ServiceError Unit := checkLifecycleTarget row

/-- The checks of `deleteAgent`. -/
def checkDelete (row : AgentRow) : Except ServiceError Unit := do
  checkLifecycleTarget row
  refuse (row.status ≠ .suspended) (.badRequest "Only suspended agents can be deleted. Suspend the agent first.")

/-- The statement a lifecycle call ends with. Its `WHERE` names only the agent. -/
def writeStatus (status : AgentStatus) (row : AgentRow) : AgentRow := { row with status := status }

end AgentRuntime

end FirstTree
