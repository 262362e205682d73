import FirstTree.Server.ListCursor

/-!
# The projection of a chat

What `applyAfterFanOut` writes in the transaction of a message: the last message and the activity of the chat, the engagement of its
readers, and the unread counters. The state is that of one chat; the transactions of its messages write it one after the other, in the
order in which they commit, since each of them updates the row of the chat.
-/

namespace FirstTree

/-- A text in UTF-16 code units. -/
abbrev CodeUnits := List UInt16

/-- The projection columns of a chat. -/
structure ProjectedChat where
  lastMessageAt : Option Timestamp
  lastMessagePreview : Option CodeUnits
  activityAt : Timestamp

/-- The row of an agent's state of the chat. -/
structure ProjectedUserState where
  engagementStatus : String
  unreadMentionCount : Nat

/-- A chat and the states of its readers. -/
structure ChatProjection where
  chat : ProjectedChat
  userStates : String → Option ProjectedUserState

/-- The row of an agent. -/
structure ProjectionAgent where
  uuid : String
  type : String
  managerId : String

/-- The row of a member of an organization. -/
structure ProjectionMember where
  id : String
  agentId : String
  status : String

/-- The row of a membership of the chat. -/
structure ProjectionMembership where
  agentId : String
  accessMode : String

/-- The tables a transaction reads. -/
structure ProjectionTables where
  memberships : List ProjectionMembership
  agents : List ProjectionAgent
  members : List ProjectionMember

/-- `ApplyAfterFanOutInput`. -/
structure ApplyAfterFanOutInput where
  senderId : String
  mentionedAgentIds : List String
  contentPreview : CodeUnits
  messageCreatedAt : Option Date
  bumpForAgentFinalText : Bool

/-- A message, with the tables its transaction reads. -/
structure ProjectedMessage where
  senderId : String
  senderType : String
  mergedMentions : List String
  previewText : CodeUnits
  createdAt : Timestamp
  isAgentFinalText : Bool
  tables : ProjectionTables

/-- The timestamp that a date is sent as. -/
def Date.toTimestamp (d : Date) : Timestamp :=
  ⟨d.micros, by
    rw [Date.micros, Int.mul_ediv_cancel _ (by decide)]
    exact d.valid⟩

namespace Projection

/-- `GREATEST`. -/
def greatest (a b : Timestamp) : Timestamp := if a.micros < b.micros then b else a

/-- A human. -/
def isHuman (t : ProjectionTables) (agentId : String) : Bool := t.agents.any fun a => a.uuid = agentId && a.type = "human"

/-- A human who speaks in the chat and is not the sender. -/
def isHumanSpeaker (t : ProjectionTables) (senderId : String) (cm : ProjectionMembership) : Bool :=
  cm.accessMode = "speaker" && cm.agentId ≠ senderId && isHuman t cm.agentId

/-- A watcher who is an active member and manages the sender. -/
def isManagingWatcher (t : ProjectionTables) (senderId : String) (cm : ProjectionMembership) : Bool :=
  cm.accessMode = "watcher" && t.members.any fun m => m.agentId = cm.agentId && m.status = "active" &&
    t.agents.any fun a => a.managerId = m.id && a.uuid = senderId && a.type ≠ "human"

/-- The union of the branches: whose counter advances. -/
def unreadTargets (t : ProjectionTables) (input : ApplyAfterFanOutInput) : List String :=
  let mentioned := (t.memberships.filter fun cm =>
    isHumanSpeaker t input.senderId cm && input.mentionedAgentIds.contains cm.agentId).map (·.agentId)
  let finalText := (t.memberships.filter (isHumanSpeaker t input.senderId)).map (·.agentId) ++
    (t.memberships.filter (isManagingWatcher t input.senderId)).map (·.agentId)
  ((if input.mentionedAgentIds = [] then [] else mentioned) ++ if input.bumpForAgentFinalText then finalText else []).eraseDups

/-- An archived chat is revived for its reader. -/
def revive (state : ProjectedUserState) : ProjectedUserState :=
  if state.engagementStatus = "archived" then { state with engagementStatus := "active" } else state

/-- The counter advances; without a row, one is inserted. -/
def bump (state : Option ProjectedUserState) : ProjectedUserState :=
  match state with
  | none => ⟨"active", 1⟩
  | some state => { state with unreadMentionCount := state.unreadMentionCount + 1 }

/-- `applyAfterFanOut`. -/
def applyAfterFanOut (t : ProjectionTables) (now : Date) (s : ChatProjection) (input : ApplyAfterFanOutInput) : ChatProjection :=
  let previewClipped := if input.contentPreview = [] then none else some (input.contentPreview.take 200)
  let ts := input.messageCreatedAt.getD now
  let chat : ProjectedChat := ⟨some ts.toTimestamp, previewClipped, greatest s.chat.activityAt ts.toTimestamp⟩
  let revived := fun agentId => (s.userStates agentId).map revive
  let targets := unreadTargets t input
  ⟨chat, fun agentId => if agentId ∈ targets then some (bump (revived agentId)) else revived agentId⟩

/-- The projection call of a message. -/
def projectionInput (m : ProjectedMessage) : ApplyAfterFanOutInput :=
  ⟨m.senderId, m.mergedMentions, m.previewText, some m.createdAt.toDate, m.isAgentFinalText && m.senderType ≠ "human"⟩

/-- What the transaction of a message leaves. -/
def commit (now : Date) (s : ChatProjection) (m : ProjectedMessage) : ChatProjection :=
  applyAfterFanOut m.tables now s (projectionInput m)

/-- What the transactions of messages leave, in the order in which they commit. -/
def commitAll (now : Date) (s : ChatProjection) (order : List ProjectedMessage) : ChatProjection := order.foldl (commit now) s

end Projection

end FirstTree
