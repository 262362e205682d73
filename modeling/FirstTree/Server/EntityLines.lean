import Mathlib.Data.List.Lex
import Mathlib.Data.List.Sort
import FirstTree.Lib.LockedPrograms
import FirstTree.Server.AgentRuntime

/-!
# The attention lines of GitHub entities

The mapping rows of one organization, from a human, a delegate and an entity to a chat, and the five transactions that read and write
them: the resolution of an existing line, of a target and of a personnel target, the follow and the unfollow. Each takes the advisory
lock of its entity and then runs statement by statement. What they read of other tables, and the chat they create, comes with the
call.
-/

namespace FirstTree

open Transactions

/-- The types of GitHub entities. -/
inductive GithubEntityType where
  | issue | pullRequest | discussion | commit
  deriving DecidableEq

/-- A `GithubEntity`: its type and its key. -/
structure GithubEntity where
  type : GithubEntityType
  key : String

/-- The `bound_via` of a mapping row. -/
inductive BoundVia where
  | direct | fixesLink | agentDeclared | humanDeclared | humanFallback
  deriving DecidableEq

/-- The `entity_state` of a mapping row. -/
inductive EntityState where
  | open_ | draft | closed | merged
  deriving DecidableEq

/-- The primary key of a mapping row, in its organization. -/
structure LineKey (Agent : Type) where
  humanAgentId : Agent
  delegateAgentId : Agent
  entityType : GithubEntityType
  entityKey : String
  deriving DecidableEq

/-- What a mapping row holds. -/
structure Line (Chat : Type) where
  chatId : Chat
  boundVia : BoundVia
  boundAt : Nat
  entityState : EntityState

/-- Lower case, as the lock and the unfollow fold keys. It leaves the number of a key. -/
structure LowerCase where
  lower : String → String
  numbered : ∀ (repo : String) (number : Nat), lower (repo ++ "#" ++ toString number) = lower repo ++ "#" ++ toString number

/-! ## Entity keys -/

namespace EntityKey

/-- A character that `\s` matches. -/
def isSpace (c : Char) : Bool :=
  c ∈ [' ', '\t', '\n', '\r', '\u000b', '\u000c', '\u00a0', '\u1680', '\u2028', '\u2029', '\u202f', '\u205f', '\u3000', '\ufeff'] ||
    ('\u2000' ≤ c && c ≤ '\u200a')

/-- A list before and after the last place of an element. -/
def splitLast (c : Char) : List Char → Option (List Char × List Char)
  | [] => none
  | x :: xs =>
    match splitLast c xs with
    | some (before, after) => some (x :: before, after)
    | none => if x = c then some ([], xs) else none

/-- The match of a key by `^([^/\s]+)\/([^/\s#@]+)#` with a word and digits after it. -/
def matchKey (word : List Char) (key : String) : Option (List Char × List Char × List Char) := do
  let (slug, suffix) ← splitLast '#' key.toList
  let owner := slug.takeWhile (· ≠ '/')
  let repo := (slug.dropWhile (· ≠ '/')).drop 1
  let number := suffix.drop word.length
  if owner ≠ [] ∧ owner.all (!isSpace ·) ∧ '/' ∈ slug ∧ repo ≠ [] ∧ repo.all (fun c => !isSpace c && !c ∈ ['/', '#', '@']) ∧
      word.isPrefixOf suffix ∧ number ≠ [] ∧ number.all (·.isDigit) then
    some (owner, repo, number)
  else none

/-- `canonicalizeGithubEntityKey`. -/
def canonicalizeGithubEntityKey (entityType : GithubEntityType) (entityKey : String) : String :=
  if entityType ≠ .discussion then entityKey
  else
    match matchKey "discussion-".toList entityKey with
    | some (owner, repo, number) => .ofList (owner ++ '/' :: repo ++ '#' :: number)
    | none => entityKey

/-- `legacyDiscussionEntityKey`. -/
def legacyDiscussionEntityKey (entityKey : String) : Option String :=
  (matchKey [] entityKey).map fun (owner, repo, number) => .ofList (owner ++ '/' :: repo ++ '#' :: ("discussion-".toList ++ number))

/-- `githubEntityKeyCandidates`. -/
def githubEntityKeyCandidates (entityType : GithubEntityType) (entityKey : String) : List String :=
  if entityType ≠ .discussion then [entityKey]
  else
    let canonical := canonicalizeGithubEntityKey entityType entityKey
    ([some entityKey, some canonical, legacyDiscussionEntityKey canonical].filterMap id).dedup

/-- `normalizeGithubEntity`. -/
def normalizeGithubEntity (entity : GithubEntity) : GithubEntity :=
  { entity with key := canonicalizeGithubEntityKey entity.type entity.key }

end EntityKey

open EntityKey

/-- `FollowableGithubEntityType`. -/
inductive FollowableGithubEntityType where
  | issue | pullRequest | discussion
  deriving DecidableEq

/-- The type of a followable entity. -/
def FollowableGithubEntityType.entityType : FollowableGithubEntityType → GithubEntityType
  | .issue => .issue
  | .pullRequest => .pullRequest
  | .discussion => .discussion

/-- An entity with a number in a repository. -/
structure NumberedEntity where
  type : FollowableGithubEntityType
  repo : String
  number : Nat

/-- The entity under the key that `extractEventEntity` and `resolveEntityOnGithub` build. -/
def NumberedEntity.entity (ref : NumberedEntity) : GithubEntity := ⟨ref.type.entityType, ref.repo ++ "#" ++ toString ref.number⟩

/-- An entity of a webhook: a number in a repository, or a commit. -/
inductive EntityRef where
  | numbered (ref : NumberedEntity)
  | commit (repo sha : String)

/-- The entity of a webhook under the key that `extractEventEntity` builds. -/
def EntityRef.entity : EntityRef → GithubEntity
  | .numbered ref => ref.entity
  | .commit repo sha => ⟨.commit, repo ++ "@" ++ sha⟩

namespace EntityLines

variable {Agent Chat : Type} [DecidableEq Agent] [DecidableEq Chat]

/-- A program over the mapping rows. -/
abbrev LineProgram (Agent Chat : Type) (α : Type) := Program (LineKey Agent) (Line Chat) ServiceError α

/-- A mapping row with its key. -/
abbrev LineRow (Agent Chat : Type) := Sigma fun _ : LineKey Agent => Line Chat

/-! ## Lookups -/

/-- `ACTIVE_COMMIT_BOUND_VIA`. -/
def activeCommitBoundVia : List BoundVia := [.direct, .fixesLink, .humanFallback]

/-- `activeMappingProvenance`. -/
def activeMappingProvenance (entityType : GithubEntityType) (boundVia : BoundVia) : Bool :=
  decide (entityType = .commit → boundVia ∈ activeCommitBoundVia)

/-- The chat of a mapping row, with how it was bound. -/
structure Mapping (Chat : Type) where
  chatId : Chat
  boundVia : BoundVia

/-- The rows of a pair and an entity, the canonical key first. -/
def lookupRows (humanAgentId delegateAgentId : Agent) (entity : GithubEntity) (t : Rows (LineKey Agent) (Line Chat)) :
    Option (LineRow Agent Chat) :=
  let rows := t.entries.filter fun e => decide (e.1.humanAgentId = humanAgentId ∧ e.1.delegateAgentId = delegateAgentId ∧
    e.1.entityType = entity.type ∧ e.1.entityKey ∈ githubEntityKeyCandidates entity.type entity.key) &&
    activeMappingProvenance entity.type e.2.boundVia
  (rows.find? fun e => decide (e.1.entityKey = canonicalizeGithubEntityKey entity.type entity.key)).or rows.head?

/-- `lookupMapping`. -/
def lookupMapping (humanAgentId delegateAgentId : Agent) (entity : GithubEntity) : LineProgram Agent Chat (Option (Mapping Chat)) :=
  .select fun t => (lookupRows humanAgentId delegateAgentId entity t).map fun e => ⟨e.2.chatId, e.2.boundVia⟩

/-- The order of `lookupMappingByHuman`: the canonical key, an open or draft state, the earliest binding. -/
def byHumanRank (canonicalKey : String) (e : LineRow Agent Chat) : List Nat :=
  [if e.1.entityKey = canonicalKey then 0 else 1, if e.2.entityState = .open_ ∨ e.2.entityState = .draft then 0 else 1, e.2.boundAt]

/-- The first row in the order of a rank, the earlier one of two of the same rank. -/
def firstByRank (rank : LineRow Agent Chat → List Nat) (rows : List (LineRow Agent Chat)) : Option (LineRow Agent Chat) :=
  rows.foldl (fun best e => match best with
    | none => some e
    | some first => if rank e < rank first then some e else some first) none

/-- `lookupMappingByHuman`. -/
def lookupMappingByHuman (humanAgentId : Agent) (entity : GithubEntity) : LineProgram Agent Chat (Option Chat) :=
  .select fun t =>
    let rows := t.entries.filter fun e => decide (e.1.humanAgentId = humanAgentId ∧ e.1.entityType = entity.type ∧
      e.1.entityKey ∈ githubEntityKeyCandidates entity.type entity.key) && activeMappingProvenance entity.type e.2.boundVia
    (firstByRank (byHumanRank (canonicalizeGithubEntityKey entity.type entity.key)) rows).map (·.2.chatId)

/-! ## Insertion -/

/-- The parameters of `insertMappingIfAbsent`, with the time of the transaction. -/
structure InsertMapping (Agent Chat : Type) where
  humanAgentId : Agent
  delegateAgentId : Agent
  entity : GithubEntity
  chatId : Chat
  boundVia : BoundVia
  entityState : Option EntityState
  now : Nat

/-- A mapping that was inserted or was there. -/
structure InsertedMapping (Chat : Type) where
  chatId : Chat
  boundVia : BoundVia
  inserted : Bool

/-- The key of a pair and an entity. -/
def lineKey (humanAgentId delegateAgentId : Agent) (entity : GithubEntity) : LineKey Agent :=
  ⟨humanAgentId, delegateAgentId, entity.type, entity.key⟩

/-- The rows of a commit with a historical provenance, which a placement converts. -/
def inertCommitRows (params : InsertMapping Agent Chat) (entity : GithubEntity) (t : Rows (LineKey Agent) (Line Chat)) :
    List (LineRow Agent Chat) :=
  t.entries.filter fun e => decide (e.1.humanAgentId = params.humanAgentId ∧ e.1.delegateAgentId = params.delegateAgentId ∧
    e.1.entityType = .commit ∧ e.1.entityKey ∈ githubEntityKeyCandidates entity.type entity.key ∧ e.2.boundVia ∉ activeCommitBoundVia)

/-- The conversion of the historical rows of a commit; whether there is one. -/
def reactivateCommit (params : InsertMapping Agent Chat) (entity : GithubEntity) : LineProgram Agent Chat Bool :=
  .mutate (fun t => (inertCommitRows params entity t).map fun e => (e.1, some
      { chatId := params.chatId, boundVia := params.boundVia, boundAt := params.now
        entityState := params.entityState.getD e.2.entityState }))
    fun t => !(inertCommitRows params entity t).isEmpty

/-- The `INSERT … ON CONFLICT DO NOTHING`; whether it inserts. -/
def insertMapping (params : InsertMapping Agent Chat) (entity : GithubEntity) : LineProgram Agent Chat Bool :=
  let key := lineKey params.humanAgentId params.delegateAgentId entity
  .mutate (fun t => if (t.lookup key).isSome then [] else [(key, some
      { chatId := params.chatId, boundVia := params.boundVia, boundAt := params.now,
        entityState := params.entityState.getD .open_ })])
    fun t => (t.lookup key).isNone

/-- The insertion, and the row that won when there is one. -/
def insertOrReread (params : InsertMapping Agent Chat) (entity : GithubEntity) : LineProgram Agent Chat (InsertedMapping Chat) := do
  if ← insertMapping params entity then return ⟨params.chatId, params.boundVia, true⟩
  match ← lookupMapping params.humanAgentId params.delegateAgentId entity with
  | some winner => return ⟨winner.chatId, winner.boundVia, false⟩
  | none => .throws (.unexpected "Unexpected: mapping insert conflicted but row not visible on re-read")

/-- `insertMappingIfAbsent`. -/
def insertMappingIfAbsent (params : InsertMapping Agent Chat) : LineProgram Agent Chat (InsertedMapping Chat) := do
  let entity := normalizeGithubEntity params.entity
  match ← lookupMapping params.humanAgentId params.delegateAgentId entity with
  | some existing => return ⟨existing.chatId, existing.boundVia, false⟩
  | none =>
    if entity.type = .commit ∧ params.boundVia ∈ activeCommitBoundVia then
      if ← reactivateCommit params entity then return ⟨params.chatId, params.boundVia, true⟩
      insertOrReread params entity
    else insertOrReread params entity

/-! ## Target resolution -/

/-- A `GithubTargetChatIntent`. -/
inductive TargetChatIntent (Chat : Type) where
  | providerTaskTarget
  | reuseMembership (chatId : Chat)
  | reuseWithLine (chatId : Chat) (admitWakeAgent : Bool)
  | strictNewLine

/-- An `EntityStateSeed`. -/
structure EntityStateSeed where
  entityType : GithubEntityType
  entityKey : String
  state : EntityState

/-- The parameters of a target resolution but the entity, with the chat it creates when it does, and the time. -/
structure ResolveParams (Agent Chat : Type) where
  humanAgentId : Agent
  delegateAgentId : Agent
  relatedEntities : List GithubEntity
  eventType : String
  action : String
  isMentionMatched : Bool
  entityStateSeed : Option EntityStateSeed
  createChat : Except ServiceError Chat
  now : Nat

/-- A resolved target. -/
structure Placement (Chat : Type) where
  chatId : Chat
  created : Bool
  boundVia : Option BoundVia

/-- `isCreationEvent`. -/
def isCreationEvent (eventType action : String) : Bool :=
  (eventType == "pull_request" && action == "opened") || (eventType == "issues" && action == "opened")

/-- `stateSeedForEntity`. -/
def stateSeedForEntity (seed : Option EntityStateSeed) (entity : GithubEntity) : Option EntityState :=
  match seed with
  | none => none
  | some seed =>
    if seed.entityType ≠ entity.type then none
    else if canonicalizeGithubEntityKey entity.type seed.entityKey ≠ canonicalizeGithubEntityKey entity.type entity.key then none
    else some seed.state

/-- A mapping to a chat that a resolution has chosen. -/
def bindLine (params : ResolveParams Agent Chat) (entity : GithubEntity) (chatId : Chat) (boundVia : BoundVia) :
    LineProgram Agent Chat (InsertedMapping Chat) :=
  insertMappingIfAbsent
    { humanAgentId := params.humanAgentId, delegateAgentId := params.delegateAgentId, entity := entity, chatId := chatId
      boundVia := boundVia, entityState := stateSeedForEntity params.entityStateSeed entity, now := params.now }

/-- The line of the first related entity that has one. -/
def lookupRelated (params : ResolveParams Agent Chat) : List GithubEntity → LineProgram Agent Chat (Option (Mapping Chat))
  | [] => pure none
  | ref :: rest => do
    match ← lookupMapping params.humanAgentId params.delegateAgentId ref with
    | some linked => return some linked
    | none => lookupRelated params rest

/-- A fresh chat for the entity, unless it is a creation event without the authority for one. -/
def placeFresh (params : ResolveParams Agent Chat) (entity : GithubEntity) : LineProgram Agent Chat (Option (Placement Chat)) :=
  if isCreationEvent params.eventType params.action ∧ params.isMentionMatched = false then pure none
  else
    match params.createChat with
    | .error error => .throws error
    | .ok chat => do
      let inserted ← bindLine params entity chat .direct
      return some ⟨inserted.chatId, decide (inserted.chatId = chat), some inserted.boundVia⟩

/-- The provider task's reuse of a chat: the human's line of the entity, else the pair's line of a related entity. -/
def reuseForTask (params : ResolveParams Agent Chat) (entity : GithubEntity) : LineProgram Agent Chat (Option (Placement Chat)) := do
  match ← lookupMappingByHuman params.humanAgentId entity with
  | some chat =>
    let inserted ← bindLine params entity chat .humanFallback
    return some ⟨inserted.chatId, false, some inserted.boundVia⟩
  | none =>
    match ← lookupRelated params (params.relatedEntities.map normalizeGithubEntity) with
    | some linked =>
      let inserted ← bindLine params entity linked.chatId .fixesLink
      return some ⟨inserted.chatId, false, some inserted.boundVia⟩
    | none => return none

/-- `resolveTargetChatInTransaction`. -/
def resolveTargetChatInTransaction (params : ResolveParams Agent Chat) (rawEntity : GithubEntity) (intent : TargetChatIntent Chat) :
    LineProgram Agent Chat (Option (Placement Chat)) := do
  let entity := normalizeGithubEntity rawEntity
  match ← lookupMapping params.humanAgentId params.delegateAgentId entity with
  | some direct => return some ⟨direct.chatId, false, some direct.boundVia⟩
  | none =>
    match intent with
    | .reuseMembership chatId => return some ⟨chatId, false, none⟩
    | .reuseWithLine chatId _ =>
      let inserted ← bindLine params entity chatId .humanFallback
      return some ⟨inserted.chatId, false, some inserted.boundVia⟩
    | .providerTaskTarget =>
      match ← reuseForTask params entity with
      | some placed => return some placed
      | none => placeFresh params entity
    | .strictNewLine => placeFresh params entity

/-- What `resolveGithubPersonnelTargetChat` reads of other tables: whether the placement is valid for the candidate chats, the
decision on them, and whether the wake agent can be admitted. -/
structure PersonnelAnswers (Chat : Type) where
  placement : List Chat → Bool
  decision : List Chat → TargetChatIntent Chat
  admission : Except ServiceError Unit

/-- The chats of the lines of an entity. -/
def candidateChats (entity : GithubEntity) : LineProgram Agent Chat (List Chat) :=
  .select fun t => ((t.entries.filter fun e => decide (e.1.entityType = entity.type ∧
    e.1.entityKey ∈ githubEntityKeyCandidates entity.type entity.key) && activeMappingProvenance entity.type e.2.boundVia).map
      (·.2.chatId)).dedup

/-- The placement after a decision, with the wake agent admitted first when the decision says so. -/
def placeDecided (params : ResolveParams Agent Chat) (entity : GithubEntity) (admission : Except ServiceError Unit)
    (decision : TargetChatIntent Chat) : LineProgram Agent Chat (Option (Placement Chat)) :=
  match decision, admission with
  | .reuseWithLine _ true, .error error => .throws error
  | _, _ => resolveTargetChatInTransaction params entity decision

/-- `resolveGithubPersonnelTargetChat`, with whether the line existed. -/
def resolveGithubPersonnelTargetChat (params : ResolveParams Agent Chat) (entity : GithubEntity) (answers : PersonnelAnswers Chat) :
    LineProgram Agent Chat (Option (Placement Chat × Bool)) := do
  let candidates ← candidateChats entity
  if answers.placement candidates = false then return none
  match ← lookupMapping params.humanAgentId params.delegateAgentId entity with
  | some direct => return some (⟨direct.chatId, false, some direct.boundVia⟩, true)
  | none =>
    let placed ← placeDecided params entity answers.admission (answers.decision candidates)
    return placed.map fun p => (p, false)

/-- `resolveGithubExistingLineChat`. -/
def resolveGithubExistingLineChat (humanAgentId delegateAgentId : Agent) (entity : GithubEntity) :
    LineProgram Agent Chat (Option Chat) := do
  let current ← lookupMapping humanAgentId delegateAgentId entity
  return current.map (·.chatId)

/-! ## Follow and unfollow -/

/-- What `executeScmFollowLine` does with the rows of one attention line. -/
structure ScmFollowLineStorage (Agent Chat Record : Type) where
  chatOf : Record → Chat
  listLines : LineProgram Agent Chat (List Record)
  createLine : LineProgram Agent Chat (Record × Bool)
  moveLine : Record → LineProgram Agent Chat (Option Record)
  removeLines : List Record → LineProgram Agent Chat Unit
  getChatTopic : Chat → Option String

/-- The outcome of a follow that does not conflict. -/
inductive FollowOutcome where
  | created | alreadyFollowing | rebound
  deriving DecidableEq

/-- A `ScmFollowLineResult`. -/
inductive ScmFollowLineResult (Chat Record : Type) where
  | line (outcome : FollowOutcome) (record : Record)
  | conflict (chatId : Chat) (topic : Option String)

/-- The creation at the end of `executeScmFollowLine`, after a rebind whose row had vanished or without one. -/
def createFollowLine {Record : Type} (targetChatId : Chat) (rebindFallback : Bool)
    (storage : ScmFollowLineStorage Agent Chat Record) : LineProgram Agent Chat (ScmFollowLineResult Chat Record) := do
  let (record, inserted) ← storage.createLine
  if inserted then return .line .created record
  if storage.chatOf record = targetChatId then return .line (if rebindFallback then .created else .alreadyFollowing) record
  return .conflict (storage.chatOf record) (storage.getChatTopic (storage.chatOf record))

/-- `executeScmFollowLine`. -/
def executeScmFollowLine {Record : Type} (targetChatId : Chat) (rebind : Bool) (storage : ScmFollowLineStorage Agent Chat Record) :
    LineProgram Agent Chat (ScmFollowLineResult Chat Record) := do
  let existing ← storage.listLines
  match existing.findIdx? fun line => decide (storage.chatOf line = targetChatId) with
  | some sameChatIndex =>
    match existing[sameChatIndex]? with
    | none => .throws (.unexpected "SCM follow line disappeared from its deterministic snapshot")
    | some sameChat =>
      storage.removeLines (existing.eraseIdx sameChatIndex)
      return .line .alreadyFollowing sameChat
  | none =>
    match existing with
    | [] => createFollowLine targetChatId false storage
    | elsewhere :: others =>
      if rebind = false then return .conflict (storage.chatOf elsewhere) (storage.getChatTopic (storage.chatOf elsewhere))
      storage.removeLines others
      match ← storage.moveLine elsewhere with
      | some moved => return .line .rebound moved
      | none => createFollowLine targetChatId true storage

/-- The parameters of a follow, with what it reads of other tables: whether the pair still has the authority, and the topics of
chats. -/
structure FollowParams (Agent Chat : Type) where
  chatId : Chat
  humanAgentId : Agent
  delegateAgentId : Agent
  boundVia : BoundVia
  entityState : EntityState
  rebind : Bool
  authority : Bool
  topic : Chat → Option String
  now : Nat

/-- A row of the pair and the entity, as a follow reads it. -/
structure GithubFollowLine (Chat : Type) where
  chatId : Chat
  boundVia : BoundVia
  entityKey : String

/-- `listLines` of a follow. -/
def listLines (params : FollowParams Agent Chat) (entity : GithubEntity) : LineProgram Agent Chat (List (GithubFollowLine Chat)) :=
  .select fun t =>
    let rows := t.entries.filter fun e =>
        decide (e.1.humanAgentId = params.humanAgentId ∧ e.1.delegateAgentId = params.delegateAgentId ∧
      e.1.entityType = entity.type ∧ e.1.entityKey ∈ githubEntityKeyCandidates entity.type entity.key)
    let rank : LineRow Agent Chat → List Nat := fun e => [if e.1.entityKey = entity.key then 0 else 1, e.2.boundAt]
    (rows.insertionSort fun a b => rank a ≤ rank b).map fun e => ⟨e.2.chatId, e.2.boundVia, e.1.entityKey⟩

/-- `removeLines` of a follow. -/
def removeLines (params : FollowParams Agent Chat) (entity : GithubEntity) (lines : List (GithubFollowLine Chat)) :
    LineProgram Agent Chat Unit :=
  if lines = [] then pure ()
  else
    .mutate (fun t => (t.entries.filter fun e => decide (e.1.humanAgentId = params.humanAgentId ∧
      e.1.delegateAgentId = params.delegateAgentId ∧ e.1.entityType = entity.type ∧ e.1.entityKey ∈ lines.map (·.entityKey))).map
        fun e => (e.1, none)) fun _ => ()

/-- `moveLine` of a follow. -/
def moveLine (params : FollowParams Agent Chat) (entity : GithubEntity) (row : GithubFollowLine Chat) :
    LineProgram Agent Chat (Option (GithubFollowLine Chat)) :=
  let key : LineKey Agent := ⟨params.humanAgentId, params.delegateAgentId, entity.type, row.entityKey⟩
  .mutate (fun t => if (t.lookup key).isSome then [(key, some
      { chatId := params.chatId, boundVia := params.boundVia, boundAt := params.now, entityState := params.entityState })] else [])
    fun t => if (t.lookup key).isSome then some ⟨params.chatId, params.boundVia, row.entityKey⟩ else none

/-- `createLine` of a follow. -/
def createLine (params : FollowParams Agent Chat) (entity : GithubEntity) :
    LineProgram Agent Chat (GithubFollowLine Chat × Bool) := do
  let inserted ← insertMappingIfAbsent
    { humanAgentId := params.humanAgentId, delegateAgentId := params.delegateAgentId, entity := entity, chatId := params.chatId
      boundVia := params.boundVia, entityState := some params.entityState, now := params.now }
  let lines ← listLines params entity
  match (lines.find? fun line => decide (line.chatId = inserted.chatId)).or lines.head? with
  | some record => return (record, inserted.inserted)
  | none => .throws (.unexpected "GitHub follow insert completed without a surviving mapping")

/-- The transaction of `declareEntityFollow`. -/
def declareEntityFollow (params : FollowParams Agent Chat) (entity : GithubEntity) :
    LineProgram Agent Chat (ScmFollowLineResult Chat (GithubFollowLine Chat)) :=
  if params.authority = false then
    .throws (.conflict "GitHub follow authority changed while resolving the entity; retry from current chat state")
  else
    executeScmFollowLine params.chatId params.rebind
      { chatOf := (·.chatId), listLines := listLines params entity, createLine := createLine params entity
        moveLine := moveLine params entity, removeLines := removeLines params entity, getChatTopic := params.topic }

/-- An `EntityReference` of an unfollow. -/
structure EntityReference where
  repo : String
  number : Nat
  explicitType : Option FollowableGithubEntityType

/-- The types that an unfollow matches. -/
def unfollowTypes (ref : EntityReference) : List GithubEntityType :=
  match ref.explicitType with
  | some .discussion => [.discussion]
  | some _ => [.issue, .pullRequest]
  | none => [.issue, .pullRequest, .discussion]

/-- The rows that an unfollow deletes. -/
def unfollowRows (folding : LowerCase) (chatId : Chat) (ref : EntityReference) (t : Rows (LineKey Agent) (Line Chat)) :
    List (LineRow Agent Chat) :=
  let key := folding.lower (ref.repo ++ "#" ++ toString ref.number)
  let lowerKeys := key :: if .discussion ∈ unfollowTypes ref then (legacyDiscussionEntityKey key).toList else []
  t.entries.filter fun e =>
    decide (e.2.chatId = chatId ∧ e.1.entityType ∈ unfollowTypes ref ∧ folding.lower e.1.entityKey ∈ lowerKeys)

/-- The transaction of `removeEntityFollow`: the number of rows it deletes. -/
def removeEntityFollow (folding : LowerCase) (chatId : Chat) (ref : EntityReference) : LineProgram Agent Chat Nat :=
  .mutate (fun t => (unfollowRows folding chatId ref t).map fun e => (e.1, none)) fun t => (unfollowRows folding chatId ref t).length

/-! ## The transactions -/

/-- A call of one of the five transactions. -/
inductive LineCall (Agent Chat : Type) where
  | existingLine (humanAgentId delegateAgentId : Agent) (ref : EntityRef)
  | target (params : ResolveParams Agent Chat) (ref : EntityRef) (intent : TargetChatIntent Chat)
  | personnel (params : ResolveParams Agent Chat) (ref : EntityRef) (answers : PersonnelAnswers Chat)
  | follow (params : FollowParams Agent Chat) (ref : NumberedEntity)
  | unfollow (chatId : Chat) (ref : EntityReference)

/-- The result of a transaction. -/
inductive LineOutcome (Chat : Type) where
  | existingLine (found : Option Chat)
  | target (placed : Option (Placement Chat))
  | personnel (placed : Option (Placement Chat × Bool))
  | follow (result : ScmFollowLineResult Chat (GithubFollowLine Chat))
  | unfollow (removed : Nat)

/-- The advisory lock of a transaction, in its organization. -/
def lockKey (folding : LowerCase) : LineCall Agent Chat → String
  | .existingLine _ _ ref => folding.lower ref.entity.key
  | .target _ ref _ => folding.lower ref.entity.key
  | .personnel _ ref _ => folding.lower ref.entity.key
  | .follow _ ref => folding.lower ref.entity.key
  | .unfollow _ ref => folding.lower (ref.repo ++ "#" ++ toString ref.number)

/-- The program of a transaction, after its lock. -/
def program (folding : LowerCase) : LineCall Agent Chat → LineProgram Agent Chat (LineOutcome Chat)
  | .existingLine human delegate ref => return .existingLine (← resolveGithubExistingLineChat human delegate ref.entity)
  | .target params ref intent => return .target (← resolveTargetChatInTransaction params ref.entity intent)
  | .personnel params ref answers => return .personnel (← resolveGithubPersonnelTargetChat params ref.entity answers)
  | .follow params ref => return .follow (← declareEntityFollow params ref.entity)
  | .unfollow chatId ref => return .unfollow (← removeEntityFollow folding chatId ref)

/-- The mapping rows of an organization with the transactions open on them, by number. -/
abbrev LineSystem (Agent Chat : Type) :=
  System (Committed (LineCall Agent Chat) (LineKey Agent) (Line Chat) (LineOutcome Chat)) Nat
    (Job (LineCall Agent Chat) (LineKey Agent) (Line Chat) ServiceError (LineOutcome Chat))

/-- One step of a transaction. -/
def step (folding : LowerCase) (s : LineSystem Agent Chat) (op : JobOp (LineCall Agent Chat) Nat) : Option (LineSystem Agent Chat) :=
  jobStep (lockKey folding) (program folding) s op

end EntityLines

end FirstTree
