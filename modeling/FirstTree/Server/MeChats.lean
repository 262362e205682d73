import Mathlib.Data.Prod.Lex
import FirstTree.Server.ListCursor

/-!
# The conversation list

The rows of a member's conversation list with its filters, the cursor of the list as a text, and the pages `listMeChats` answers with.
Chat ids are compared by the database's collation.
-/

namespace FirstTree

/-- A text of the database, compared by its collation. -/
structure SqlText where
  chars : List Char

/-- The row of a chat. An id is a UUID: it is not empty and has no bar. -/
structure WorkspaceChat where
  id : SqlText
  organizationId : String
  parentChatId : Option String
  source : Option String
  activityAt : Timestamp
  id_ne_nil : id.chars ≠ []
  id_no_bar : '|' ∉ id.chars

/-- `ChatSource`. -/
inductive ChatSource where
  | manual | github | gitlab | agent | feishu
  deriving DecidableEq, Repr

/-- `ChatEngagementView`. -/
inductive ChatEngagementView where
  | active | archived | all
  deriving DecidableEq, Repr

/-- The row of an agent's state of a chat. -/
structure WorkspaceUserState where
  unreadMentionCount : Nat
  engagementStatus : String
  pinnedAt : Option Timestamp

/-- The tables the list reads. The id is the key of a chat; the chat and the agent are that of a membership and of a state. -/
structure WorkspaceTables where
  chats : List WorkspaceChat
  ids_nodup : (chats.map (·.id)).Nodup
  membership : SqlText → String → Option AccessMode
  userState : SqlText → String → Option WorkspaceUserState

/-- `ListMeChatsQuery`. -/
structure ListMeChatsQuery where
  cursor : Option (List Char)
  limit : PageLimit
  unreadOnly : Bool
  watching : Bool
  engagement : ChatEngagementView
  origin : Option (List ChatSource)
  participants : Option (List String)

/-- `RawMeChatRow`: a chat, the caller's access to it, and the caller's state of it, if there is one. -/
structure RawMeChatRow where
  chat : WorkspaceChat
  accessMode : AccessMode
  userState : Option WorkspaceUserState

/-- `MeChatRow`: the chat, the dates the list shows, and what is looked up for it. -/
structure MeChatRow (δ : Type) where
  chatId : SqlText
  activityAt : Date
  pinnedAt : Option Date
  details : δ

/-- `ListMeChatsResponse`. -/
structure ListMeChatsResponse (δ : Type) where
  pinned : List (MeChatRow δ)
  rows : List (MeChatRow δ)
  nextCursor : Option (List Char)

/-- The runtime's texts: those of dates, and `base64url` of the UTF-8 of a text. -/
structure CursorText extends DateText where
  toBase64url : List Char → List Char
  ofBase64url : List Char → List Char
  ofBase64url_toBase64url : ∀ t, ofBase64url (toBase64url t) = t
  toBase64url_ne_nil : ∀ t, t ≠ [] → toBase64url t ≠ []

namespace MeChats

/-! ## Cursors -/

/-- `CURSOR_VERSION`. -/
def cursorVersion : List Char := "v2".toList

/-- `encodeCursor`. -/
def encodeCursor (T : CursorText) (activityAt : Date) (chatId : List Char) : List Char :=
  T.toBase64url (cursorVersion ++ '|' :: (T.toISOString activityAt ++ '|' :: chatId))

/-- `decodeCursor`. -/
def decodeCursor (T : CursorText) (cursor : List Char) : Option (Date × List Char) :=
  match (T.ofBase64url cursor).splitOn '|' with
  | [version, tsPart, chatId] =>
    if version = cursorVersion && ! tsPart.isEmpty && ! chatId.isEmpty then (T.read tsPart).map (·, chatId) else none
  | _ => none

/-! ## Filters -/

/-- `ENGAGEMENT_VIEW_PREDICATE`. -/
def engagementPredicate (view : ChatEngagementView) (row : RawMeChatRow) : Bool :=
  let status := (row.userState.map (·.engagementStatus)).getD "active"
  match view with
  | .active => status = "active"
  | .archived => status = "archived"
  | .all => status = "active" || status = "archived"

/-- `sourceFilterSql`. -/
def sourceFilter (source : ChatSource) (row : RawMeChatRow) : Bool :=
  match source with
  | .manual => ! row.chat.source.any fun s => ["github", "gitlab", "agent", "feishu"].contains s
  | .github => row.chat.source = some "github"
  | .gitlab => row.chat.source = some "gitlab"
  | .agent => row.chat.source = some "agent"
  | .feishu => row.chat.source = some "feishu"

/-- `originsFilterSql`. -/
def originsFilter (origins : List ChatSource) (row : RawMeChatRow) : Bool :=
  origins.eraseDups.isEmpty || origins.eraseDups.any (sourceFilter · row)

/-- `participantsFilterSql`: one of the agents speaks in the chat. -/
def participantsFilter (db : WorkspaceTables) (agentIds : List String) (row : RawMeChatRow) : Bool :=
  let unique := (agentIds.filter (· ≠ "")).eraseDups
  unique.isEmpty || unique.any fun agentId => db.membership row.chat.id agentId = some .speaker

/-- The filters of a query. -/
def matchesFilters (db : WorkspaceTables) (query : ListMeChatsQuery) (row : RawMeChatRow) : Bool :=
  (! query.unreadOnly || decide (0 < (row.userState.map (·.unreadMentionCount)).getD 0)) &&
    (! query.watching || row.accessMode = .watcher) && engagementPredicate query.engagement row &&
    query.origin.all (originsFilter · row) && query.participants.all (participantsFilter db · row)

/-! ## Rows -/

/-- The chat of a row joined with the caller's membership and state. -/
def joinRow (db : WorkspaceTables) (humanAgentId : String) (chat : WorkspaceChat) : Option RawMeChatRow :=
  (db.membership chat.id humanAgentId).map fun accessMode => ⟨chat, accessMode, db.userState chat.id humanAgentId⟩

/-- The caller's rows that match the filters of a query. -/
def matchingRows (db : WorkspaceTables) (humanAgentId organizationId : String) (query : ListMeChatsQuery) : List RawMeChatRow :=
  (db.chats.filterMap (joinRow db humanAgentId)).filter fun row =>
    row.chat.parentChatId.isNone && row.chat.organizationId = organizationId && matchesFilters db query row

/-- A pinned row. -/
def isPinned (row : RawMeChatRow) : Bool := row.userState.any (·.pinnedAt.isSome)

variable [LinearOrder SqlText]

/-- What a row is ordered by: the activity, then the id. -/
def rowKey (row : RawMeChatRow) : Timestamp ×ₗ SqlText := toLex (row.chat.activityAt, row.chat.id)

/-- `cursorPredicate`. -/
def isBelow (cursor : Option (Date × SqlText)) (row : RawMeChatRow) : Bool :=
  cursor.all fun c =>
    decide (row.chat.activityAt.micros < c.1.micros) ||
      (decide (row.chat.activityAt.micros = c.1.micros) && decide (row.chat.id < c.2))

/-- The rows of chats not seen before. -/
def dedupeFrom (seen : List SqlText) : List RawMeChatRow → List RawMeChatRow
  | [] => []
  | r :: rows => if r.chat.id ∈ seen then dedupeFrom seen rows else r :: dedupeFrom (r.chat.id :: seen) rows

/-- `dedupeRawByChatId`: the first row of every chat. -/
def dedupeRawByChatId (rows : List RawMeChatRow) : List RawMeChatRow := dedupeFrom [] rows

/-- What `enrichMeChatRows` makes of a row. -/
def enrichRow {δ : Type} (details : RawMeChatRow → δ) (row : RawMeChatRow) : MeChatRow δ :=
  ⟨row.chat.id, row.chat.activityAt.toDate, (row.userState.bind (·.pinnedAt)).map (·.toDate), details row⟩

/-- `rowById.get`. -/
def rowById {δ : Type} (rows : List (MeChatRow δ)) (chatId : SqlText) : Option (MeChatRow δ) :=
  rows.reverse.find? (·.chatId = chatId)

/-- The cursor of a query, or the error of one that cannot be read. -/
def queryCursor (T : CursorText) : Option (List Char) → Except ServiceError (Option (Date × SqlText))
  | none => .ok none
  | some [] => .ok none
  | some cursor =>
    match decodeCursor T cursor with
    | none => .error (.badRequest "Invalid cursor")
    | some (activityAt, chatId) => .ok (some (activityAt, ⟨chatId⟩))

/-- `listMeChats`. The rows of the first page are enriched together with the pinned ones. -/
def listMeChats {δ : Type} (T : CursorText) (db : WorkspaceTables) (orderBy : List RawMeChatRow → List RawMeChatRow)
    (details : RawMeChatRow → δ) (humanAgentId organizationId : String) (query : ListMeChatsQuery) :
    Except ServiceError (ListMeChatsResponse δ) := do
  let cursor ← queryCursor T query.cursor
  let matching := matchingRows db humanAgentId organizationId query
  let ordinaryRaw := (orderBy (matching.filter (isBelow cursor))).take (query.limit.value + 1)
  let page := Keyset.page query.limit.value (fun last => encodeCursor T last.chat.activityAt.toDate last.chat.id.chars) ordinaryRaw
  match cursor with
  | none =>
    let pinnedRaw := orderBy (matching.filter isPinned)
    let firstPageRows := (dedupeRawByChatId (page.items ++ pinnedRaw)).map (enrichRow details)
    let pinned := (pinnedRaw.filterMap fun row => rowById firstPageRows row.chat.id).filter (·.pinnedAt.isSome)
    pure ⟨pinned, page.items.filterMap fun row => rowById firstPageRows row.chat.id, page.nextCursor⟩
  | some _ => pure ⟨[], page.items.map (enrichRow details), page.nextCursor⟩

end MeChats

end FirstTree
