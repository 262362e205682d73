import FirstTree.Server.AgentRuntime

/-!
# The runtime session proofs of an agent

Sequences of the calls that write the proof of one agent's runtime session, or the route and the status it is read with. A call that
throws changes nothing. The history keeps what a proof is measured against: the binds, the revokes that found their row, and the
switches that committed.
-/

namespace FirstTree

open AgentRuntime

/-- What happened to the proof of the agent. -/
inductive ProofEvent where
  | bound (clientId token : String)
  | revoked
  | switched
  deriving DecidableEq

/-- The row of the agent and what happened to its proof, in order. -/
structure ProofLog where
  row : AgentRow
  history : List ProofEvent

/-- A call. A switch is its claim, its commit with the revoke after it, and its end, with other calls in between. -/
inductive ProofOp where
  | bindAgentRuntimeSession (clientId token boundAt : String) (clientAvailable : Bool)
  | revokeAgentRuntimeSession (expectedClientId : Option String)
  | revokeAgentRuntimeSessionIfTokenMatches (clientId token : String)
  | suspendAgent
  | reactivateAgent
  | claimRuntimeSwitch (claim : RuntimeSwitchClaim)
  | commitRuntimeSwitch (claim : RuntimeSwitchClaim) (clientAvailable : Bool)
  | abortRuntimeSwitchClaim (claim : RuntimeSwitchClaim)
  | reactivateCommittedRuntimeSwitch (claim : RuntimeSwitchClaim)

namespace RuntimeSessions

variable (text : JsonText) (hash : TokenHash)

/-- The log after an update, when its `WHERE` matched. -/
def updated (s : ProofLog) (event : List ProofEvent) : Option AgentRow → ProofLog
  | some row => ⟨row, s.history ++ event⟩
  | none => s

/-- The log after a lifecycle call that is let through. -/
def written (s : ProofLog) (status : AgentStatus) : Except ServiceError Unit → ProofLog
  | .ok _ => { s with row := writeStatus status s.row }
  | .error _ => s

/-- The revoke of `detachOldRuntimeAfterCommittedRoute`. -/
def detachOldRuntime (claim : RuntimeSwitchClaim) (row : AgentRow) : AgentRow :=
  if claim.oldClientId = "" then row else (revokeAgentRuntimeSession row (some claim.oldClientId)).getD row

/-- One call. -/
def step (s : ProofLog) : ProofOp → ProofLog
  | .bindAgentRuntimeSession clientId token boundAt clientAvailable =>
    match bindAgentRuntimeSession hash s.row clientId token boundAt clientAvailable with
    | .ok (token, row) => ⟨row, s.history ++ [.bound clientId token]⟩
    | .error _ => s
  | .revokeAgentRuntimeSession expectedClientId => updated s [.revoked] (revokeAgentRuntimeSession s.row expectedClientId)
  | .revokeAgentRuntimeSessionIfTokenMatches clientId token =>
    updated s [.revoked] (revokeAgentRuntimeSessionIfTokenMatches text hash s.row clientId token)
  | .suspendAgent => written s .suspended (checkSuspend s.row)
  | .reactivateAgent => written s .active (checkReactivate s.row)
  | .claimRuntimeSwitch claim => updated s [] (claimRuntimeSwitch s.row claim s.row)
  | .commitRuntimeSwitch claim clientAvailable =>
    updated s [.switched] ((commitRuntimeSwitch text claim clientAvailable s.row).map (detachOldRuntime claim))
  | .abortRuntimeSwitchClaim claim => updated s [] (abortRuntimeSwitchClaim text claim s.row)
  | .reactivateCommittedRuntimeSwitch claim => updated s [] (reactivateCommittedRuntimeSwitch text claim s.row)

end RuntimeSessions

end FirstTree
