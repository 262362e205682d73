import FirstTree.Shared.Message
import FirstTree.Shared.Mentions
import FirstTree.Shared.ShellCommandIo

/-!
# Preflight of a message

What `preflightMessageSendIntent` checks and computes before a message is stored: the guards on the body, the metadata a caller may
not write, the recipients, and the metadata the row will hold; then the markers the send transaction stamps on that metadata.
-/

namespace FirstTree

/-- `BadRequestError`, `ForbiddenError` and the others a send fails with, by class and text. -/
inductive SendError where
  | badRequest (message : String) (code : Option String)
  | forbidden (message : String)
  | conflict (message : String)
  | notFound (message : String)
  | unexpected (message : String)

/-- What the shared schemas and parsers answer about the parts of a send that neither routing nor trust look into. -/
structure MessageReaders where
  /-- `isAttachmentRef`. -/
  isAttachmentRef : Json → Bool
  /-- `imageBatchRefContentSchema` or `imageRefContentSchema` parses. -/
  isFileContent : Json → Bool
  /-- `documentContextSchema` parses. -/
  isDocumentContext : Json → Bool
  /-- `contextDecisionSchema.safeParse`. -/
  contextDecision : Json → Option Json
  /-- `parseContextImpactNotes`, each note through `contextDecisionFromImpactNote`. -/
  impactNotes : String → List (Option Json)
  /-- `feishuMessageMetadataSchema.safeParse`, with whether the direction is inbound. -/
  feishuMessageMetadata : Json → Option (Json × Bool)
  /-- `JSON.parse` of a text that denotes a string. -/
  jsonString : String → Option String
  toLowerCase : String → String
  /-- `getServerCliBinding().binName`. -/
  binName : String

/-- The request-level precondition of a Team Skill command. -/
structure SkillPrecondition where
  recipientAgentId : String
  expectedConfigVersion : Nat
  resourceId : String
  requestedSlug : String

/-- `SendMessage`. -/
structure SendMessage where
  format : MessageFormat
  content : Json
  metadata : Option Metadata
  inReplyTo : Option String
  source : MessageSource
  purpose : Option MessagePurpose
  receiverNames : List String
  skillPrecondition : Option SkillPrecondition

/-- `SendMessageOptions`, by what preflight and the stored metadata depend on. -/
structure SendMessageOptions where
  integrationSender : Bool
  allowFeishuMetadata : Bool
  forceSilentFanOut : Bool
  allowFirstChatOrientation : Bool
  askAgentRequestId : Option String
  allowRecipientlessSend : Bool
  dropInactiveMentionTargets : Bool
  normalizeMentionsInContent : Bool
  addressedToAgentIds : List String
  allowSystemSender : Bool
  allowContextReviewRun : Bool
  allowGithubTaskRun : Bool
  allowCronTrigger : Bool

/-- `SendIntentParticipant`. -/
structure SendIntentParticipant where
  agentId : String
  name : Option String
  displayName : String
  status : AgentStatus
  type : SenderType

/-- The argument of `preflightMessageSendIntent`. -/
structure SendIntent where
  chatId : String
  senderId : String
  senderType : SenderType
  data : SendMessage
  options : SendMessageOptions
  participants : List SendIntentParticipant

/-- `SendMessagePreflightResult`. -/
structure SendMessagePreflightResult where
  content : Json
  metadata : Metadata
  mentionedAgentIds : List String
  isAgentFinalText : Bool
  forceSilentFanOut : Bool

namespace MessagePreflight

/-- Refuse a request that meets a condition. -/
def reject (condition : Prop) [Decidable condition] (error : SendError) : Except SendError Unit :=
  if condition then .error error else .ok ()

/-- Refuse with a `BadRequestError` of a text. -/
def badRequest (message : String) : SendError := .badRequest message none

/-! ## The body -/

/-- `String.prototype.trim`. -/
def trim (content : String) : String :=
  String.ofList (((content.toList.dropWhile ShellCommandIo.isSpace).reverse.dropWhile ShellCommandIo.isSpace).reverse)

/-- `PLACEHOLDER_BODY_SENTINELS`. -/
def placeholderBodySentinels : List String := ["placeholder", "todo", "fixme", "tbd", "xxx"]

/-- `validateTextBody`. -/
def validateTextBody (rd : MessageReaders) (content : String) (isRequest allowEmptyWithAttachments : Bool) :
    Except SendError Unit :=
  let trimmed := trim content
  if trimmed = "" then
    if ! isRequest && allowEmptyWithAttachments then .ok ()
    else .error (badRequest (if isRequest then
        "An ask ('request') needs a non-empty body — the question/background IS the message content."
      else "Message content cannot be empty or whitespace-only."))
  else
    reject (rd.toLowerCase trimmed ∈ placeholderBodySentinels) (badRequest ("Message content is just a placeholder (\"" ++ trimmed ++
      "\") — this is almost always a half-built send (e.g. a file read that ran before the file was written). " ++
      "Compose the real body, then send."))

/-- The text `"\n"` of two characters, read at every place of a content. -/
def escapedNewlines (content : List Char) : Nat := (content.zip content.tail).count ('\x5c', 'n')

/-- `looksLikeEscapedNewlineBody`. -/
def looksLikeEscapedNewlineBody (content : String) : Bool :=
  decide ('\n' ∉ content.toList) && decide (2 ≤ escapedNewlines content.toList)

/-- `validateAgentTextEncoding`. -/
def validateAgentTextEncoding (content : String) : Except SendError Unit :=
  reject (looksLikeEscapedNewlineBody content) (badRequest
    ("Message content contains literal \"\x5cn\" escapes and no real newlines — this looks like a multi-line " ++
      "markdown body that was shell-escaped or JSON-escaped before sending. Send the body with real newlines " ++
      "via stdin, a message file, or an unescaped API string before retrying."))

/-- An escape `JSON` writes: a backslash before `n`, `r`, `t`, a quote or a backslash. -/
def hasJsonEscape (content : List Char) : Bool :=
  (content.zip content.tail).any fun p => p.1 = '\x5c' ∧ p.2 ∈ ['n', 'r', 't', '\x22', '\x5c']

/-- `maybeUnwrapDoubleEncoded`. -/
def maybeUnwrapDoubleEncoded (rd : MessageReaders) (content : String) : Option String :=
  if 4 ≤ content.length ∧ content.toList.head? = some '\x22' ∧ content.toList.getLast? = some '\x22' ∧
    hasJsonEscape content.toList then
    rd.jsonString content
  else none

/-- `normalizeNonHumanTextContent`. -/
def normalizeNonHumanTextContent (rd : MessageReaders) (senderType : SenderType) (allowEscapedNewlineBody : Bool) :
    Json → Except SendError Json
  | .str content =>
    if senderType = .human then .ok (.str content)
    else do
      let textContent := (maybeUnwrapDoubleEncoded rd content).getD content
      if ! allowEscapedNewlineBody then validateAgentTextEncoding textContent
      pure (.str textContent)
  | content => .ok content

/-- `allowsCliEscapedNewlineBody`. -/
def allowsCliEscapedNewlineBody (data : SendMessage) (metadata : Metadata) : Bool :=
  decide (data.source = .cli) && ((metadata.lookup cliBodyOriginKey).bind Json.string?).any (· ∈ ["stdin", "message-file"])

/-- `validateMessageContent`. -/
def validateMessageContent (rd : MessageReaders) (format : MessageFormat) (content : Json) (hasAttachmentRefs : Bool) :
    Except SendError Unit :=
  match format, content with
  | .file, content => reject (rd.isFileContent content = false) (badRequest
      ("Invalid file message content: expected an image reference (\x7bimageId, mimeType, filename\x7d) or a batch " ++
        "(\x7bcaption?, attachments[1..20]\x7d), with MIME one of png/jpeg/gif/webp."))
  | .request, .str content => validateTextBody rd content true false
  | .request, _ => .error (badRequest "Invalid request message content: expected a non-empty text question.")
  | _, .str content => validateTextBody rd content false hasAttachmentRefs
  | _, _ => .ok ()

/-- `attachmentRefsFromMetadata(metadata).length > 0`. -/
def hasAttachmentRefs (rd : MessageReaders) (metadata : Metadata) : Bool :=
  match metadata.lookup "attachments" with
  | some (.arr entries) => entries.any rd.isAttachmentRef
  | _ => false

/-! ## Keys a caller may not write -/

/-- The keys of a Context Reviewer run. -/
def isContextReviewKey (key : String) : Bool := key = "contextTreeReviewer" || key.startsWith "contextReview"

/-- The keys of a GitHub task run. -/
def isGithubTaskKey (key : String) : Bool := key = "teamAgentTask" || key = "githubTaskRun" || key.startsWith "githubTask"

/-- The keys the filter of `stripUntrustedMetadataKeys` keeps. -/
def keepsMetadataKey (options : SendMessageOptions) (key : String) : Bool :=
  key ≠ addressedAgentIdsKey && key ≠ askAgentKey && key ≠ cliBodyOriginKey && key ≠ "editedAt" &&
    key ≠ firstChatOrientationContinuationKey && (options.allowFeishuMetadata || key ≠ "feishu") &&
    (options.allowFirstChatOrientation || key ≠ firstChatOrientationKey) && (options.allowSystemSender || key ≠ "systemSender")

/-- Refuse a metadata object with a key that meets a condition, naming the first one. -/
def rejectKey (reserved : String → Bool) (allowed : Bool) (owner : String) (code : Option String) (metadata : Metadata) :
    Except SendError Unit :=
  match metadata.keys.find? reserved with
  | some key =>
    reject (allowed = false) (.badRequest ("Metadata key \"" ++ key ++ "\" is reserved for server-authored " ++ owner ++ ".") code)
  | none => .ok ()

/-- `stripUntrustedMetadataKeys`. The filter is the identity when it has nothing to strip, where the source returns its argument. -/
def stripUntrustedMetadataKeys (metadata : Metadata) (options : SendMessageOptions) : Except SendError Metadata := do
  rejectKey isContextReviewKey options.allowContextReviewRun "Context Reviewer runs" none metadata
  rejectKey isGithubTaskKey options.allowGithubTaskRun "GitHub task reply runs" none metadata
  rejectKey (· = cronTriggerKey) options.allowCronTrigger "scheduled job triggers" (some "CRON_TRIGGER_METADATA_RESERVED") metadata
  pure (AssocList.filterKeys (keepsMetadataKey options) metadata)

/-- A metadata object without a key. -/
def withoutKey (key : String) (metadata : Metadata) : Metadata := AssocList.filterKeys (· ≠ key) metadata

/-- The notes of a body. -/
def bodyNotes (rd : MessageReaders) : Json → List (Option Json)
  | .str body => if body = "" then [] else rd.impactNotes body
  | _ => []

/-- `applyContextDecisionTrustBoundary`. -/
def applyContextDecisionTrustBoundary (rd : MessageReaders) (metadata : Metadata) (senderType : SenderType) (body : Json) :
    Except SendError Metadata :=
  if senderType = .human then .ok (withoutKey contextDecisionKey metadata)
  else
    match bodyNotes rd body with
    | [some derived] => .ok (metadata.insert contextDecisionKey derived)
    -- Two notes, or one that does not convert: no receipt, and the caller's is not taken either.
    | _ :: _ => .ok (withoutKey contextDecisionKey metadata)
    | [] =>
      match metadata.lookup contextDecisionKey with
      | none => .ok metadata
      | some raw =>
        match rd.contextDecision raw with
        | some parsed => .ok (metadata.insert contextDecisionKey parsed)
        | none => .error (badRequest
            ("Malformed \"metadata.contextDecision\": expected \x7bversion: 1, effect: " ++
              "\"conflicted\"|\"redirected\"|\"constrained\"|\"confirmed\", summary: <one sentence>, " ++
              "evidence: [\x7brepoUrl, commit, nodePath, heading?\x7d] with 1-3 rows\x7d."))

/-- The check and normalisation of `metadata.feishu` on a trusted path. -/
def trustedFeishu (rd : MessageReaders) (options : SendMessageOptions) (metadata : Metadata) : Except SendError Metadata :=
  match options.allowFeishuMetadata, metadata.lookup "feishu" with
  | true, some raw =>
    match rd.feishuMessageMetadata raw with
    | none => .error (badRequest "Malformed trusted Feishu message metadata")
    | some (parsed, inbound) => do
      reject (options.integrationSender ≠ inbound) (badRequest
        "Feishu integration senders are inbound-only; outbound intents require a member sender")
      pure (metadata.insert "feishu" parsed)
  | _, _ => .ok metadata

/-- `validateDocumentContext`. -/
def validateDocumentContext (rd : MessageReaders) (metadata : Metadata) : Except SendError Unit :=
  match metadata.lookup "documentContext" with
  | none | some .null => .ok ()
  | some raw => reject (rd.isDocumentContext raw = false) (badRequest "Invalid documentContext")

/-- The resolution a message declares. -/
def resolutionOf (metadata : Metadata) : Option RequestResolution := RequestResolution.parse (metadata.lookup "resolves")

/-- A `resolves` that is there parses. -/
def validateResolution (metadata : Metadata) : Except SendError Unit :=
  reject ((metadata.lookup "resolves").isSome ∧ resolutionOf metadata = none) (badRequest
    ("Malformed \"metadata.resolves\": expected \x7brequest: <messageId>, kind: \"answered\"|\"closed\", reason?\x7d."))

/-- The metadata preflight works with: what is left of the caller's object after the trust boundary. -/
def incomingMetadata (rd : MessageReaders) (input : SendIntent) (effectiveContent : Json) (raw : Metadata) :
    Except SendError Metadata := do
  let stripped ← stripUntrustedMetadataKeys raw input.options
  let bounded ← applyContextDecisionTrustBoundary rd stripped input.senderType effectiveContent
  let incomingMeta ← trustedFeishu rd input.options bounded
  validateDocumentContext rd incomingMeta
  validateResolution incomingMeta
  pure incomingMeta

/-! ## Recipients -/

/-- What the recipients of a send resolve to. -/
structure Routing where
  /-- The names no participant has. -/
  unresolvedNames : List String
  /-- Explicit mentions and resolved names, each once. -/
  mergedMentions : List String
  /-- A lifecycle close lost a mention of someone who is gone. -/
  droppedClosedResolutionMention : Bool
  dropInactiveMentionTargets : Bool
  isHumanClosedResolution : Bool

/-- `participantsById.get(id)`: a later row of the same agent would win. -/
def participantById (input : SendIntent) (id : String) : Option SendIntentParticipant :=
  input.participants.reverse.find? (·.agentId = id)

/-- The agent a receiver name resolves to. -/
def speakerByName (rd : MessageReaders) (input : SendIntent) (name : String) : Option String :=
  ((input.participants.reverse.find? fun p => p.name.any fun n => n ≠ "" ∧ rd.toLowerCase n = rd.toLowerCase name).map
    (·.agentId)).filter (· ≠ "")

/-- An explicit mention is kept: the sender's own, and one of a participant that is not dropped for being inactive. -/
def keepsMention (input : SendIntent) (dropInactive : Bool) (id : String) : Bool :=
  id = input.senderId ||
    match participantById input id with
    | none => false
    | some p => ! (dropInactive && p.status ≠ .active)

/-- The recipients a send declares by its metadata and its receiver names. -/
def resolveRouting (rd : MessageReaders) (input : SendIntent) (incomingMeta : Metadata) : Routing :=
  let explicitMentionsRawList := Json.strings (incomingMeta.lookup "mentions")
  let isHumanClosedResolution := input.senderType = .human && (resolutionOf incomingMeta).any (·.kind = .closed)
  let dropInactive := input.options.dropInactiveMentionTargets || isHumanClosedResolution
  { unresolvedNames := input.data.receiverNames.filter fun name => speakerByName rd input name = none
    mergedMentions := (explicitMentionsRawList.filter (keepsMention input dropInactive) ++
      input.data.receiverNames.filterMap (speakerByName rd input)).eraseDups
    droppedClosedResolutionMention := isHumanClosedResolution &&
      explicitMentionsRawList.any fun id => ! keepsMention input dropInactive id
    dropInactiveMentionTargets := dropInactive
    isHumanClosedResolution := isHumanClosedResolution }

/-- The mentions of others. -/
def mentionTargets (input : SendIntent) (routing : Routing) : List String := routing.mergedMentions.filter (· ≠ input.senderId)

/-- `routedRecipientIds`: the mentions of others and the recipients the system fixed. -/
def routedRecipientIds (input : SendIntent) (mergedMentions : List String) : List String :=
  (mergedMentions.filter (· ≠ input.senderId) ++ input.options.addressedToAgentIds.filter (· ≠ input.senderId)).eraseDups

/-- The refusal of an inactive recipient. -/
def inactiveRecipient (p : SendIntentParticipant) (id : String) : SendError :=
  let label := if p.displayName ≠ "" then p.displayName else (p.name.filter (· ≠ "")).getD id
  badRequest ("Cannot route to \"" ++ label ++ "\" because the agent is " ++
    (if p.status = .suspended then "suspended. Reactivate it before sending."
      else "deleted. Deleted agents cannot receive new messages."))

/-- Every mention of another is of an active participant. -/
def checkMentionTarget (input : SendIntent) (id : String) : Except SendError Unit :=
  match participantById input id with
  | none => .error (badRequest ("Cannot route to \"" ++ id ++ "\" — they are not a participant of this chat."))
  | some p => reject (p.status ≠ .active) (inactiveRecipient p id)

/-- A recipient the system fixed is no inactive participant. -/
def checkRoutedRecipient (input : SendIntent) (id : String) : Except SendError Unit :=
  match participantById input id with
  | none => .ok ()
  | some p => reject (p.status ≠ .active) (inactiveRecipient p id)

/-- The refusal of a name that is no participant's. -/
def checkReceiverNames (rd : MessageReaders) (routing : Routing) : Except SendError Unit :=
  match routing.unresolvedNames with
  | [] => .ok ()
  | sample :: _ => .error (badRequest ("Cannot route to \"" ++ sample ++ "\" — they are not a participant of this chat. " ++
      "Add them first:\n  " ++ rd.binName ++ " chat invite " ++ sample ++
      "\nThen retry your send. Or ask a human in this chat to add them."))

/-- A request mentions exactly one recipient, a human. -/
def checkRequestTarget (input : SendIntent) (routing : Routing) : Except SendError Unit :=
  if input.data.format ≠ .request then .ok ()
  else
    match routing.mergedMentions with
    | [targetId] => do
      reject (targetId = "") (requestMentionCount 1)
      reject ((participantById input targetId).any (·.type = .human) = false) (badRequest
        "A 'request' message must be directed at a human member.")
    | mentions => .error (requestMentionCount mentions.length)
where
  /-- The refusal of a request by the number of its mentions. -/
  requestMentionCount (count : Nat) : SendError :=
    badRequest ("A 'request' message must mention exactly one recipient (got " ++ toString count ++
      "). An open question is directed at a single human.")

/-- The message is the silent text an agent ends its turn with. -/
def isAgentFinalText (input : SendIntent) : Bool := input.data.purpose = some .agentFinalText

/-- `purposeProfile.forceSilentFanOut`. -/
def forceSilentFanOut (input : SendIntent) : Bool := isAgentFinalText input || input.options.forceSilentFanOut

/-- A send that needs a recipient has one. -/
def checkExplicitRecipient (input : SendIntent) (routing : Routing) : Except SendError Unit :=
  let skip := isAgentFinalText input || input.options.allowRecipientlessSend ||
    (routing.isHumanClosedResolution && routing.droppedClosedResolutionMention)
  let hasActiveAddressed := input.options.addressedToAgentIds.any fun id =>
    id ≠ input.senderId && (participantById input id).any (·.status = .active)
  reject (! skip && (mentionTargets input routing).isEmpty && ! hasActiveAddressed) (badRequest
    ("Sending a message requires an explicit recipient. " ++
      "Pass `metadata.mentions: [agentId]` (or `receiverNames: [name]`) to declare routing, " ++
      "or set `purpose: \"agent-final-text\"` for silent history-only sends."))

/-! ## The metadata of the row -/

/-- The live agents a send is expected to wake. -/
def addressedAgentIds (input : SendIntent) (mergedMentions : List String) : List String :=
  if forceSilentFanOut input then []
  else (routedRecipientIds input mergedMentions).filter fun id =>
    (participantById input id).any fun p => p.status = .active && p.type ≠ .human

/-- A list of ids as an array. -/
def idArray (ids : List String) : Json := .arr (ids.map .str)

/-- `metadataToStore`: the incoming metadata with the merged mentions and the addressed agents, without a Team Skill marker. -/
def metadataToStore (input : SendIntent) (routing : Routing) (incomingMeta : Metadata) : Metadata :=
  let withMentions := if routing.dropInactiveMentionTargets || ! routing.mergedMentions.isEmpty
    then incomingMeta.insert "mentions" (idArray routing.mergedMentions) else incomingMeta
  let withAddressed := if ! (addressedAgentIds input routing.mergedMentions).isEmpty
    then withMentions.insert addressedAgentIdsKey (idArray (addressedAgentIds input routing.mergedMentions)) else withMentions
  withoutKey teamSkillInvocationKey withAddressed

/-- The message is a mirror of an agent's final text, and no runtime notice. -/
def isAgentFinalTextMirror (input : SendIntent) (metadata : Metadata) : Bool :=
  isAgentFinalText input && input.senderType ≠ .human && ! Json.isTrue (metadata.lookup runtimeNoticeKey)

/-- The final-text flag is dropped and stamped again by the purpose. -/
def stampAgentFinalText (input : SendIntent) (metadata : Metadata) : Metadata :=
  let metadataSansFlag := withoutKey agentFinalTextKey metadata
  if isAgentFinalTextMirror input metadata then metadataSansFlag.insert agentFinalTextKey (.bool true) else metadataSansFlag

/-- `scanMentionTokens`. -/
def scanMentionTokens (rd : MessageReaders) (content : String) : List String :=
  (Mentions.matchMentions (Mentions.stripCode content.toList)).map fun m => rd.toLowerCase (String.ofList m.2)

/-- The name of a mention the body does not carry yet. -/
def missingName (rd : MessageReaders) (input : SendIntent) (present : List String) (id : String) : Option String :=
  if id = input.senderId then none
  else ((input.participants.find? (·.agentId = id)).bind (·.name)).filter fun n => n ≠ "" ∧ rd.toLowerCase n ∉ present

/-- `outboundContent`: the body, with the names it does not carry prepended where the caller asked for it. -/
def outboundContent (rd : MessageReaders) (input : SendIntent) (routing : Routing) : Json → Json
  | .str content =>
    if input.options.normalizeMentionsInContent then
      let missingNames := routing.mergedMentions.filterMap (missingName rd input (scanMentionTokens rd content))
      let namePrefix := " ".intercalate (missingNames.map ("@" ++ ·))
      if missingNames.isEmpty then .str content
      else if content = "" then .str namePrefix
      else .str (namePrefix ++ " " ++ content)
    else .str content
  | content => content

/-- `preflightMessageSendIntent`. -/
def preflightMessageSendIntent (rd : MessageReaders) (input : SendIntent) : Except SendError SendMessagePreflightResult := do
  let rawIncomingMeta := input.data.metadata.getD ∅
  let attachmentRefs := hasAttachmentRefs rd rawIncomingMeta
  validateMessageContent rd input.data.format input.data.content attachmentRefs
  let allowEscapedNewlineBody := allowsCliEscapedNewlineBody input.data rawIncomingMeta
  let effectiveContent ← normalizeNonHumanTextContent rd input.senderType allowEscapedNewlineBody input.data.content
  validateMessageContent rd input.data.format effectiveContent attachmentRefs
  let incomingMeta ← incomingMetadata rd input effectiveContent rawIncomingMeta
  let routing := resolveRouting rd input incomingMeta
  checkReceiverNames rd routing
  (mentionTargets input routing).forM (checkMentionTarget input)
  (routedRecipientIds input routing.mergedMentions).forM (checkRoutedRecipient input)
  checkRequestTarget input routing
  checkExplicitRecipient input routing
  pure
    { content := outboundContent rd input routing effectiveContent
      metadata := stampAgentFinalText input (metadataToStore input routing incomingMeta)
      mentionedAgentIds := routing.mergedMentions
      isAgentFinalText := isAgentFinalText input
      forceSilentFanOut := forceSilentFanOut input }

/-! ## The markers of the send transaction -/

/-- `firstChatOrientationChatStateSchema`. -/
inductive OrientationState where
  | pending | legacyStarted | continued
  deriving DecidableEq

/-- A request message, as the send transaction reads it. -/
structure RequestRow where
  format : MessageFormat
  metadata : Metadata
  senderId : String

/-- What the statements of the send transaction answer, by their arguments. -/
structure SendReads where
  /-- The orientation of the chat in the snapshot. -/
  initialOrientationState : Option OrientationState
  /-- The orientation of the chat under its row lock. -/
  lockedOrientationState : Option OrientationState
  /-- The metadata of the first message of the chat. -/
  openingMessage : Option Metadata
  /-- The version of an agent's configuration, under its row lock. -/
  configVersion : String → Option Nat
  /-- The injected `validateTeamSkillInvocation`, with the resource and the slug it finds. -/
  validateTeamSkillInvocation : Option (SkillPrecondition → Option (String × String))
  /-- A message of the chat by its id. -/
  request : String → Option RequestRow
  /-- A message by one of the senders already resolves the request. -/
  priorResolution : String → List String → Bool

/-- A chat whose first orientation turn is not taken yet. -/
def awaitsOrientationTurn (state : Option OrientationState) : Bool := state = some .pending || state = some .legacyStarted

/-- `readFirstChatOrientationMessageMetadata` finds the marker. -/
def hasFirstChatOrientation (metadata : Metadata) : Bool :=
  match (metadata.lookup firstChatOrientationKey).bind (Json.field? "version") with
  | some (.num version) => version = 1
  | _ => false

/-- `candidateTargetAgentId`: the one mention of the opening message, where that carries the marker. -/
def openingTarget : Option Metadata → Option String
  | none => none
  | some metadata =>
    match hasFirstChatOrientation metadata, Json.strings (metadata.lookup "mentions") with
    | true, [target] => if target = "" then none else some target
    | _, _ => none

/-- `orientationTargetAgentId`. -/
def orientationTarget (reads : SendReads) (input : SendIntent) : Except SendError (Option String) :=
  if input.senderType = .human && ! input.options.allowFirstChatOrientation && awaitsOrientationTurn reads.initialOrientationState &&
      awaitsOrientationTurn reads.lockedOrientationState then
    match openingTarget reads.openingMessage with
    | some target => .ok (some target)
    | none => .error (.unexpected ("Unexpected: pending first-chat Orientation \"" ++ input.chatId ++
        "\" has no trusted target bootstrap"))
  else .ok none

/-- The refusal of a Team Skill command. -/
def skillConflict (reason : String) : SendError :=
  .conflict ("Skill command precondition failed: " ++ reason)

/-- `canonicalSkillInvocation`: the resource and the slug of a Team Skill command, by the recipients of the send. -/
def canonicalSkillInvocation (reads : SendReads) (input : SendIntent) (routed : List String) :
    Except SendError (Option (String × String)) := do
  reject (decide (input.data.purpose = some .teamSkillInvocation) ≠ input.data.skillPrecondition.isSome) (badRequest
    ("Team Skill invocation sends must carry the team-skill-invocation-v1 purpose and a skillPrecondition together. " ++
      "Re-open the slash menu and pick the command again."))
  match input.data.skillPrecondition with
  | none => pure none
  | some precondition =>
    reject (routed ≠ [precondition.recipientAgentId]) (skillConflict
      ("the message is not addressed to exactly the agent the command was chosen for. " ++
        "Re-open the slash menu and pick the command again."))
    reject (reads.configVersion precondition.recipientAgentId ≠ some precondition.expectedConfigVersion) (skillConflict
      ("the recipient agent's configuration changed after the command was chosen. " ++
        "Re-open the slash menu and pick the command again."))
    match reads.validateTeamSkillInvocation with
    | none => .error (skillConflict "this send path cannot validate Team Skill commands.")
    | some validate =>
      match validate precondition with
      | some canonical => pure (some canonical)
      | none => .error (skillConflict ("the Team Skill is no longer an enabled, unambiguous command for the recipient. " ++
          "Re-open the slash menu and pick the command again."))

/-- The agent a clarification of an open request goes to: the one that asked. -/
def askAgentTarget (reads : SendReads) (input : SendIntent) (mergedMentions : List String) (requestId : String) :
    Except SendError String := do
  reject (input.senderType ≠ .human) (.forbidden "Only the question's target human may ask the agent for clarification.")
  reject (input.data.inReplyTo ≠ some requestId ∨ (input.data.format ≠ .text ∧ input.data.format ≠ .markdown))
    (badRequest "Ask agent must be a text reply to the open question.")
  match reads.request requestId with
  | none => .error (.forbidden "This question is not an open request directed at you.")
  | some parent =>
    reject (parent.format ≠ .request ∨ ¬ isOnlyMention (parent.metadata.lookup "mentions") input.senderId)
      (.forbidden "This question is not an open request directed at you.")
    match input.participants.find? (·.agentId = parent.senderId) with
    | none => .error (badRequest "The agent that asked this question is not available for clarification.")
    | some asker =>
      reject (asker.type = .human ∨ asker.status ≠ .active)
        (badRequest "The agent that asked this question is not available for clarification.")
      reject (mergedMentions ≠ [asker.agentId]) (badRequest "Ask agent must be routed only to the agent that asked the question.")
      reject (reads.priorResolution requestId [input.senderId, parent.senderId])
        (badRequest "This question has already been handled.")
      pure asker.agentId
where
  /-- The mentions are an array of one id. -/
  isOnlyMention (mentions : Option Json) (id : String) : Bool :=
    match mentions with
    | some (.arr [.str only]) => only = id
    | _ => false

/-- The markers the transaction stamps. -/
structure ServerMarkers where
  /-- The request a clarification belongs to, and its asker. -/
  askAgent : Option (String × String)
  /-- The agent whose first-chat orientation the turn continues. -/
  continuesFirstChatOrientation : Option String
  /-- The Team Skill command, as validated. -/
  teamSkillInvocation : Option (SkillPrecondition × String × String)

/-- The markers of a send, from its routing and what the transaction read. -/
def serverMarkers (reads : SendReads) (input : SendIntent) (mergedMentions : List String) : Except SendError ServerMarkers := do
  let target ← orientationTarget reads input
  let routed := routedRecipientIds input mergedMentions
  let canonical ← canonicalSkillInvocation reads input routed
  let askAgent ← input.options.askAgentRequestId.mapM fun requestId => do
    pure (requestId, ← askAgentTarget reads input mergedMentions requestId)
  pure
    { askAgent := askAgent
      continuesFirstChatOrientation := target.filter fun id => ! forceSilentFanOut input && routed.contains id
      teamSkillInvocation := input.data.skillPrecondition.bind fun precondition => canonical.map fun c => (precondition, c) }

/-- `{requestId, agentId}`. -/
def askAgentMarker (marker : String × String) : Json := .obj [("requestId", .str marker.1), ("agentId", .str marker.2)]

/-- `{version: 1, targetAgentId}`. -/
def orientationContinuationMarker (targetAgentId : String) : Json :=
  .obj [("version", .num 1), ("targetAgentId", .str targetAgentId)]

/-- The Team Skill marker, built from the validated identity. -/
def teamSkillInvocationMarker (marker : SkillPrecondition × String × String) : Json :=
  .obj [("version", .num 1), ("recipientAgentId", .str marker.1.recipientAgentId), ("resourceId", .str marker.2.1),
    ("requestedSlug", .str marker.2.2), ("configVersion", .num marker.1.expectedConfigVersion)]

/-- Write a marker that is there. -/
def stamp (key : String) (marker : Option Json) (metadata : Metadata) : Metadata :=
  match marker with
  | some value => metadata.insert key value
  | none => metadata

/-- The metadata of the row: what preflight prepared, with the markers of the transaction. -/
def stampServerMarkers (markers : ServerMarkers) (prepared : Metadata) : Metadata :=
  stamp teamSkillInvocationKey (markers.teamSkillInvocation.map teamSkillInvocationMarker)
    (stamp firstChatOrientationContinuationKey (markers.continuesFirstChatOrientation.map orientationContinuationMarker)
      (stamp askAgentKey (markers.askAgent.map askAgentMarker) prepared))

/-- `sendMessageInner`, up to the metadata of the row it inserts. -/
def storedMetadata (rd : MessageReaders) (reads : SendReads) (input : SendIntent) : Except SendError Metadata := do
  let prepared ← preflightMessageSendIntent rd input
  let markers ← serverMarkers reads input prepared.mentionedAgentIds
  pure (stampServerMarkers markers prepared.metadata)

end MessagePreflight

end FirstTree
