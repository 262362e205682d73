import Mathlib.Data.Finset.Basic
import FirstTree.Lib.Runs

/-!
# The Reset-generation authority of the client

The four ledgers that fence provider-route admission while a Reset is in flight, and the operations on them: starting, joining and
finishing a termination, arming and releasing a generation, superseding it, flushing the terminate registry, and parking a
delivery behind the fence. The replay-fence store and its reconciliation timers share the class but not these ledgers.
-/

namespace FirstTree

/-- The identified Reset generation of a chat: the refs that alias it, and whether its release was accepted. -/
structure ResetGeneration (Ref : Type) where
  refs : Finset Ref
  released : Bool

/-- What a release of the parked fence answers. -/
inductive ResetFenceReleaseVerdict where
  | accepted
  | idempotent
  | stale
  deriving DecidableEq, Repr

/-- What the authority reads of its dependencies: the coordinator's debt and work, and the teardown authority's quarantine. -/
structure ResetReplayDeps (Chat : Type) where
  hasRecoveryDebt : Chat → Bool
  hasUnsettledWork : Chat → Bool
  isQuarantineRestartRequired : Chat → Bool

/-- The ledgers of the authority, and the recoveries it has asked the coordinator for, with their reasons. -/
structure ResetReplayAuthority (Chat Ref : Type) where
  terminatingChats : Finset Chat
  terminatePersistFailures : Finset Chat
  awaitingResetFenceRelease : Finset Chat
  resetGenerations : Chat → Option (ResetGeneration Ref)
  postResetFenceRecoveryScheduled : Finset Chat
  recoveries : List (Chat × String)

namespace ResetReplayAuthority

variable {Chat Ref : Type} [DecidableEq Chat] [DecidableEq Ref]

/-- A new authority holds nothing. -/
def init : ResetReplayAuthority Chat Ref :=
  { terminatingChats := ∅, terminatePersistFailures := ∅, awaitingResetFenceRelease := ∅, resetGenerations := fun _ => none,
    postResetFenceRecoveryScheduled := ∅, recoveries := [] }

/-- `Map.set` and `Map.delete` on the generations. -/
def setGeneration (a : ResetReplayAuthority Chat Ref) (chatId : Chat) (g : Option (ResetGeneration Ref)) :
    ResetReplayAuthority Chat Ref :=
  { a with resetGenerations := fun c => if c = chatId then g else a.resetGenerations c }

/-- A Reset generation is armed: created and not yet released. -/
def hasArmedResetGeneration (a : ResetReplayAuthority Chat Ref) (chatId : Chat) : Bool :=
  match a.resetGenerations chatId with
  | some generation => !generation.released
  | none => false

/-- The combined provider-route admission fence. -/
def isProviderRouteAdmissionFenced (deps : ResetReplayDeps Chat) (a : ResetReplayAuthority Chat Ref) (chatId : Chat) : Bool :=
  decide (chatId ∈ a.terminatingChats) ||
    decide (chatId ∈ a.terminatePersistFailures) ||
    decide (chatId ∈ a.awaitingResetFenceRelease) ||
    a.hasArmedResetGeneration chatId ||
    deps.isQuarantineRestartRequired chatId

/-- Close admission for a terminate, or join the one in flight: the flag says whether the work was started. -/
def runOrJoinTermination (a : ResetReplayAuthority Chat Ref) (chatId : Chat) : Bool × ResetReplayAuthority Chat Ref :=
  if chatId ∈ a.terminatingChats then (false, a)
  else (true, { a with terminatingChats := insert chatId a.terminatingChats })

/-- The `finally` of the flight: admission reopens once the work settled, however it settled. -/
def finishTermination (a : ResetReplayAuthority Chat Ref) (chatId : Chat) : ResetReplayAuthority Chat Ref :=
  { a with terminatingChats := a.terminatingChats.erase chatId }

/-- Park a delivery that hit the fence: the chat awaits the release. -/
def parkDeliveryBehindResetAdmissionFence (a : ResetReplayAuthority Chat Ref) (chatId : Chat) : ResetReplayAuthority Chat Ref :=
  { a with awaitingResetFenceRelease := insert chatId a.awaitingResetFenceRelease }

/-- The generation that arming `ref` leaves: a joining ref becomes an alias of the armed generation, any other starts a new one. -/
def armedGeneration (current : Option (ResetGeneration Ref)) (ref : Ref) (join : Bool) : ResetGeneration Ref :=
  match current with
  | some g => if join = true ∧ g.released = false then { g with refs := insert ref g.refs } else { refs := {ref}, released := false }
  | none => { refs := {ref}, released := false }

/-- Arm the chat's fence after a successful local terminate. -/
def armParkedResetFenceRelease (deps : ResetReplayDeps Chat) (a : ResetReplayAuthority Chat Ref) (chatId : Chat)
    (ref : Option Ref) (join : Bool) : ResetReplayAuthority Chat Ref :=
  match ref with
  | some ref =>
    { a.setGeneration chatId (some (armedGeneration (a.resetGenerations chatId) ref join)) with
      awaitingResetFenceRelease := insert chatId a.awaitingResetFenceRelease }
  | none =>
    if a.hasArmedResetGeneration chatId then a
    else if chatId ∈ a.terminatePersistFailures then a
    else if !deps.hasRecoveryDebt chatId && !deps.hasUnsettledWork chatId then
      { a with awaitingResetFenceRelease := a.awaitingResetFenceRelease.erase chatId }
    else { a with awaitingResetFenceRelease := insert chatId a.awaitingResetFenceRelease }

/-- Lift the chat's admission fence and, when debt is parked behind it, ask for one recovery. The scheduled mark is set while
the recovery is asked for and removed at the end. -/
def runParkedResetFenceRecovery (deps : ResetReplayDeps Chat) (a : ResetReplayAuthority Chat Ref) (chatId : Chat) :
    Bool × ResetReplayAuthority Chat Ref :=
  if chatId ∈ a.terminatingChats ∨ chatId ∈ a.terminatePersistFailures then (false, a)
  else if chatId ∈ a.postResetFenceRecoveryScheduled then (true, a)
  else
    let parked := { a with
      postResetFenceRecoveryScheduled := insert chatId a.postResetFenceRecoveryScheduled
      awaitingResetFenceRelease := a.awaitingResetFenceRelease.erase chatId }
    let recovered :=
      if deps.hasRecoveryDebt chatId || deps.hasUnsettledWork chatId then
        { parked with recoveries := parked.recoveries ++ [(chatId, "reset_admission_fence_cleared")] }
      else parked
    (true, { recovered with
      postResetFenceRecoveryScheduled := recovered.postResetFenceRecoveryScheduled.erase chatId })

/-- Release the parked fence after an exact receipted terminal disposition. -/
def releaseParkedResetFenceRecovery (deps : ResetReplayDeps Chat) (a : ResetReplayAuthority Chat Ref) (chatId : Chat)
    (ref : Option Ref) : ResetFenceReleaseVerdict × ResetReplayAuthority Chat Ref :=
  match ref with
  | none =>
    if a.hasArmedResetGeneration chatId then (.stale, a)
    else
      match a.runParkedResetFenceRecovery deps chatId with
      | (true, a') => (.accepted, a')
      | (false, a') => (.stale, a')
  | some ref =>
    match a.resetGenerations chatId with
    | none => (.stale, a)
    | some generation =>
      if ref ∉ generation.refs then (.stale, a)
      else if generation.released then (.idempotent, a)
      else
        match a.runParkedResetFenceRecovery deps chatId with
        | (false, a') => (.stale, a')
        | (true, a') => (.accepted, a'.setGeneration chatId (some { generation with released := true }))

/-- Retire the generation the chat holds and release its parked debt. -/
def supersedeResetGeneration (deps : ResetReplayDeps Chat) (a : ResetReplayAuthority Chat Ref) (chatId : Chat) :
    ResetFenceReleaseVerdict × ResetReplayAuthority Chat Ref :=
  match (a.setGeneration chatId none).runParkedResetFenceRecovery deps chatId with
  | (true, a') => (.accepted, a')
  | (false, a') => (.stale, a')

/-- Flush the registry snapshot of a terminate: a failure is remembered until a later flush succeeds. -/
def flushTerminateRegistry (a : ResetReplayAuthority Chat Ref) (chatId : Chat) (flush : Except String Unit) :
    Except String Unit × ResetReplayAuthority Chat Ref :=
  match flush with
  | .ok () => (.ok (), { a with terminatePersistFailures := a.terminatePersistFailures.erase chatId })
  | .error err => (.error err, { a with terminatePersistFailures := insert chatId a.terminatePersistFailures })

end ResetReplayAuthority

end FirstTree
