import FirstTree.Lib.LockedPrograms
import FirstTree.Shared.Message

/-!
# The members of a chat

The `chat_membership` rows of one chat under their agents, and the watchers that follow from them: the human agent of each active
member who manages a non-human speaker. A statement reads the rows with its transaction's own writes over them, and is the writes
it makes. The roles and the sources of the rows are left out.
-/

namespace FirstTree

open Transactions

/-- The row of an agent. -/
structure ChatAgent where
  isHuman : Bool
  inboxId : String
  managerId : String
  status : AgentStatus
  deriving DecidableEq

/-- The row of a member of an organization. -/
structure ChatMember where
  agentId : String
  active : Bool
  deriving DecidableEq

/-- The tables of agents and of members, under their keys. -/
structure Directory where
  agents : Rows String ChatAgent
  members : Rows String ChatMember

/-- `AddChatParticipantsOptions`. -/
structure AddChatParticipantsOptions where
  onConflictDoNothing : Bool
  upgradeWatcherToSpeaker : Bool
  assertHuman : Bool

/-- The membership rows of a chat. -/
abbrev Membership := Rows String AccessMode

namespace ChatMembership

/-! ## Speakers -/

/-- The agents that speak in the chat, with their rows. -/
def speakers (d : Directory) (seen : Membership) : List (String × ChatAgent) :=
  (d.agents.entries.filter fun e => decide (seen.lookup e.1 = some .speaker)).map fun e => (e.1, e.2)

/-- The rows of the agents to be added, unless one is missing or, with `assertHuman`, is not human. -/
def participantRows (d : Directory) (participants : List String) (options : AddChatParticipantsOptions) :
    Option (List (String × ChatAgent)) :=
  (participants.mapM fun p => (d.agents.lookup p).map fun agent => (p, agent)).filter fun rows =>
    !options.assertHuman || rows.all fun row => row.2.isHuman

/-- The insert of the speaker rows, by its conflict clause; without one it throws on a row that exists. -/
def insertSpeakers (options : AddChatParticipantsOptions) (participants : List String) (seen : Membership) :
    Option (List (Write String AccessMode)) :=
  if options.upgradeWatcherToSpeaker then
    -- `ON CONFLICT DO UPDATE` cannot affect a row twice.
    if participants.Nodup then some (participants.map fun p => (p, some .speaker)) else none
  else if options.onConflictDoNothing then
    some ((participants.filter fun p => (seen.lookup p).isNone).map fun p => (p, some .speaker))
  else if participants.Nodup ∧ ∀ p ∈ participants, (seen.lookup p).isNone then some (participants.map fun p => (p, some .speaker))
  else none

/-- `crossingIntoSpeaker`: the participants that become speakers, by the rows read before the insert. -/
def crossingIntoSpeaker (options : AddChatParticipantsOptions) (participants : List String) (existing : Membership) : List String :=
  participants.filter fun p =>
    match existing.lookup p with
    | some .speaker => false
    | some .watcher => options.upgradeWatcherToSpeaker
    | none => true

/-! ## Watchers -/

/-- The human agents of the active members who manage a non-human speaker: the joins that both statements share. -/
def anchored (d : Directory) (seen : Membership) : List String :=
  (speakers d seen).filterMap fun (_, agent) =>
    if agent.isHuman then none
    else (d.members.lookup agent.managerId).bind fun member => if member.active then some member.agentId else none

/-- The insert of `recomputeChatWatchers`. -/
def insertWatchers (d : Directory) (seen : Membership) : List (Write String AccessMode) :=
  ((anchored d seen).dedup.filter fun human => (seen.lookup human).isNone).map fun human => (human, some .watcher)

/-- The delete of `recomputeChatWatchers`. -/
def dropWatchers (d : Directory) (seen : Membership) : List (Write String AccessMode) :=
  (seen.keys.filter fun human => decide (seen.lookup human = some .watcher ∧ human ∉ anchored d seen)).map fun human => (human, none)

end ChatMembership

end FirstTree
