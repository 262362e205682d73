import FirstTree.Server.ListCursor
import FirstTree.Shared.ShellCommandIo

/-!
# Lists with a timestamp cursor

The lists of agents, of an agent's chats and of an organization's sessions: the rows each of them selects, and the page it answers
with. The order of a query is the database's: it is given to each list, since rows with one timestamp come in any order.
-/

namespace FirstTree

/-- The row of an agent, with the columns its lists select by. -/
structure ListedAgent where
  uuid : String
  organizationId : String
  type : String
  name : Option (List Char)
  displayName : List Char
  status : String
  visibility : String
  managerId : String
  landingCampaignTrial : Option String
  createdAt : Timestamp

/-- The row of a member of an organization. -/
structure ListedMember where
  agentId : String
  status : String

/-- The row of a chat. -/
structure ListedChat where
  id : String
  organizationId : String
  createdAt : Timestamp
  updatedAt : Timestamp

/-- The row of a membership of a chat. -/
structure ListedMembership where
  chatId : String
  agentId : String
  accessMode : String

/-- The row of a session. -/
structure ListedSession where
  agentId : String
  chatId : String
  state : String
  updatedAt : Timestamp

/-- The tables the lists read. `ilike` is the database's case-insensitive match of a text with a pattern. -/
structure ListTables where
  agents : List ListedAgent
  members : List ListedMember
  chats : List ListedChat
  memberships : List ListedMembership
  sessions : List ListedSession
  ilike : List Char → List Char → Bool

/-- `OrgScope`. -/
structure OrgScope where
  organizationId : String
  memberId : String

/-- `OrgSessionListViewer`. -/
structure OrgSessionListViewer where
  isAdmin : Bool
  memberId : String
  humanAgentId : String

/-- The filters of the list of sessions. -/
structure SessionFilters where
  state : Option String
  agentId : Option String

/-- The filters of a member's list of agents. -/
structure AgentFilters where
  type : Option String
  query : Option (List Char)
  addressableOnly : Bool

/-- `SessionListItem`: the session, and what is looked up for it. -/
structure SessionListItem (δ : Type) where
  agentId : String
  chatId : String
  state : String
  startedAt : List Char
  lastActivityAt : List Char
  details : δ

/-- A session joined with its chat. -/
structure JoinedSession where
  session : ListedSession
  chat : ListedChat

namespace Listings

open ListCursor

/-- What an optional text filter asks for: an empty one asks for nothing. -/
def asked (filter : Option String) : Option String := filter.filter (· ≠ "")

/-! ## Agents -/

/-- A date that is not valid cannot be sent to the database. -/
def invalidTime (_ : List Char) : ServiceError := .unexpected "Invalid time value"

/-- The condition of `listAgentsForAdmin`. -/
def isListedForAdmin (scope : OrgScope) (a : ListedAgent) : Bool :=
  a.organizationId = scope.organizationId && a.status ≠ "deleted"

/-- `listAgentsForAdmin`. -/
def listAgentsForAdmin (D : DateText) (db : ListTables) (orderBy : List ListedAgent → List ListedAgent) (scope : OrgScope)
    (limit : Nat) (cursor : Option (List Char)) : Except ServiceError (Keyset.Page ListedAgent (List Char)) :=
  timestampPage D invalidTime ListedAgent.createdAt orderBy (db.agents.filter (isListedForAdmin scope)) limit cursor

/-- `agentVisibilityCondition`. -/
def agentVisibilityCondition (orgId memberId : String) (a : ListedAgent) : Bool :=
  a.organizationId = orgId && a.status ≠ "deleted" && (a.visibility = "organization" || a.managerId = memberId)

/-- `agentNotLandingCampaignTrialCondition`. -/
def agentNotLandingCampaignTrialCondition (a : ListedAgent) : Bool := a.landingCampaignTrial.getD "false" ≠ "true"

/-- `agentAddressableCondition`: a human has to be an active member. -/
def agentAddressableCondition (db : ListTables) (a : ListedAgent) : Bool :=
  a.status = "active" && agentNotLandingCampaignTrialCondition a &&
    (a.type ≠ "human" || (db.members.find? (·.agentId = a.uuid)).any (·.status = "active"))

/-- A search term as a pattern, its wildcards escaped. -/
def likePattern (token : List Char) : List Char :=
  '%' :: (token.flatMap fun ch => if ['\\', '%', '_'].contains ch then ['\\', ch] else [ch]) ++ ['%']

/-- The terms of a search. -/
def searchTokens (query : List Char) : List (List Char) :=
  (query.splitOnP ShellCommandIo.isSpace).filter (· ≠ [])

/-- A term is in the name or in the display name. -/
def matchesToken (db : ListTables) (a : ListedAgent) (token : List Char) : Bool :=
  a.name.any (db.ilike · (likePattern token)) || db.ilike a.displayName (likePattern token)

/-- The conditions of `listAgentsForMember`, without the cursor's. -/
def isListedForMember (db : ListTables) (scope : OrgScope) (filters : AgentFilters) (a : ListedAgent) : Bool :=
  agentVisibilityCondition scope.organizationId scope.memberId a &&
    (! filters.addressableOnly || agentAddressableCondition db a) && (asked filters.type).all (a.type = ·) &&
    filters.query.all fun query => (searchTokens query).all (matchesToken db a)

/-- `listAgentsForMember`. -/
def listAgentsForMember (D : DateText) (db : ListTables) (orderBy : List ListedAgent → List ListedAgent) (scope : OrgScope)
    (filters : AgentFilters) (limit : Nat) (cursor : Option (List Char)) :
    Except ServiceError (Keyset.Page ListedAgent (List Char)) :=
  timestampPage D invalidTime ListedAgent.createdAt orderBy (db.agents.filter (isListedForMember db scope filters)) limit cursor

/-! ## Chats -/

/-- The chats an agent speaks in. -/
def speakerChatIds (db : ListTables) (agentId : String) : List String :=
  (db.memberships.filter fun m => m.agentId = agentId && m.accessMode = "speaker").map (·.chatId)

/-- The chats of an agent's list. -/
def listedChats (db : ListTables) (agentId : String) : List ListedChat :=
  db.chats.filter fun c => (speakerChatIds db agentId).contains c.id

/-- `listChats`. -/
def listChats (D : DateText) (db : ListTables) (orderBy : List ListedChat → List ListedChat) (agentId : String) (limit : Nat)
    (cursor : Option (List Char)) : Except ServiceError (Keyset.Page ListedChat (List Char)) :=
  if speakerChatIds db agentId = [] then .ok ⟨[], none⟩
  else timestampPage D invalidTime ListedChat.updatedAt orderBy (listedChats db agentId) limit cursor

/-! ## Sessions -/

/-- `chatAccessPredicate`: the viewer is in the chat, or an agent the viewer manages speaks in it. -/
def chatAccessPredicate (db : ListTables) (viewer : OrgSessionListViewer) (chatId : String) : Bool :=
  (db.memberships.any fun m => m.chatId = chatId && m.agentId = viewer.humanAgentId) ||
    db.memberships.any fun m => m.chatId = chatId && m.accessMode = "speaker" &&
      (db.agents.any fun a => a.uuid = m.agentId && a.managerId = viewer.memberId)

/-- The inner joins of a session with its chat and its agent, and the conditions on them. -/
def joinSession (db : ListTables) (organizationId : String) (viewer : OrgSessionListViewer) (filters : SessionFilters)
    (s : ListedSession) : Option JoinedSession :=
  match db.chats.find? (·.id = s.chatId), db.agents.find? (·.uuid = s.agentId) with
  | some chat, some agent =>
    if agent.organizationId = organizationId && chat.organizationId = organizationId &&
        (viewer.isAdmin || chatAccessPredicate db viewer chat.id) &&
        (match asked filters.state with
          | some state => s.state = state
          | none => s.state ≠ "evicted") &&
        (asked filters.agentId).all (s.agentId = ·) then
      some ⟨s, chat⟩
    else none
  | _, _ => none

/-- The sessions that a list selects. -/
def listedSessions (db : ListTables) (organizationId : String) (viewer : OrgSessionListViewer) (filters : SessionFilters) :
    List JoinedSession :=
  db.sessions.filterMap (joinSession db organizationId viewer filters)

/-- The timestamp sessions are ordered by. -/
def sessionUpdatedAt (r : JoinedSession) : Timestamp := r.session.updatedAt

/-- The item of a session. -/
def sessionItem {δ : Type} (D : DateText) (details : JoinedSession → δ) (r : JoinedSession) : SessionListItem δ :=
  ⟨r.session.agentId, r.session.chatId, r.session.state, D.toISOString r.chat.createdAt.toDate,
    D.toISOString r.session.updatedAt.toDate, details r⟩

/-- The error of a cursor that is no date. -/
def invalidCursor (cursor : List Char) : ServiceError := .badRequest ("Invalid cursor: " ++ String.ofList cursor)

/-- `listAllSessions`. The runtime state, the summary and the topic of an item are looked up page by page. -/
def listAllSessions {δ : Type} (D : DateText) (db : ListTables) (orderBy : List JoinedSession → List JoinedSession)
    (details : JoinedSession → δ) (organizationId : String) (viewer : OrgSessionListViewer) (filters : SessionFilters) (limit : Nat)
    (cursor : Option (List Char)) : Except ServiceError (Keyset.Page (SessionListItem δ) (List Char)) :=
  (timestampPage D invalidCursor sessionUpdatedAt orderBy (listedSessions db organizationId viewer filters) limit cursor).map
    (·.map (sessionItem D details))

end Listings

end FirstTree
