import FirstTree.Shared.Message
import FirstTree.Shared.SkillPaths
import Mathlib.Data.List.Sort

/-!
# The effective resources of an agent

`resolveEffectiveResources` and the runtime config built from it: the rows of recommended Team resources and of bindings, in a
bucket for each type, and the passes over the buckets that make rows unavailable. The queries are taken as what they return: the
resource rows in the order of the database, the bindings in theirs.
-/

namespace FirstTree

/-- `ResourceType`. -/
inductive ResourceType where
  | repo | prompt | skill | mcp
  deriving DecidableEq, Repr

/-- `ResourceScope`. -/
inductive ResourceScope where
  | team | agent
  deriving DecidableEq, Repr

/-- `ResourceDefaultEnabled`. -/
inductive ResourceDefaultEnabled where
  | recommended | available
  deriving DecidableEq, Repr

/-- `ResourceStatus`. -/
inductive ResourceStatus where
  | active | stale | retired
  deriving DecidableEq, Repr

/-- `AgentResourceBindingMode`. -/
inductive BindingMode where
  | include | disable | replace
  deriving DecidableEq, Repr

/-- `EffectiveResourceSource`. -/
inductive EffectiveResourceSource where
  | team_recommended | team_available | agent_extra | inline_prompt
  deriving DecidableEq, Repr

/-- The mode of an effective row. -/
inductive EffectiveMode where
  | enabled | disabled | replaced | unavailable
  deriving DecidableEq, Repr

/-- A row of `resources`. -/
structure ResourceDbRow where
  id : String
  organizationId : String
  type : ResourceType
  scope : ResourceScope
  ownerAgentId : Option String
  name : List Char
  bundleAttachmentId : Option String
  defaultEnabled : Option ResourceDefaultEnabled
  status : ResourceStatus
  payload : Json
  originTemplateId : Option String

/-- A row of `agent_resource_bindings`. -/
structure BindingDbRow where
  id : String
  type : ResourceType
  mode : BindingMode
  resourceId : Option String
  replacesResourceId : Option String
  inlinePromptBody : Option (List Char)
  repoRef : Option (List Char)
  repoLocalPath : Option (List Char)
  order : Int

/-- A row of `attachments`, whether it is ready and whether it has a payload. -/
structure BundleAttachment where
  id : String
  organizationId : String
  ready : Bool
  payloadPresent : Bool
  sizeBytes : Nat

/-- `GitRepo`. -/
structure GitRepo where
  url : List Char
  ref : Option (List Char)
  localPath : Option (List Char)
  deriving DecidableEq

/-- `RepoResourcePayload`. -/
structure RepoResourcePayload where
  url : List Char
  defaultBranch : Option (List Char)

/-- A payload that `skillResourcePayloadSchema` accepts, without its namespace. -/
structure ParsedSkillPayload where
  name : List Char
  description : List Char
  body : List Char
  metadata : Json

/-- `NoSecretMcpServer`: its name, and the object. -/
structure NoSecretMcpServer where
  name : List Char
  config : Json

/-- `RuntimeSkillBundle`. Its format is always a ZIP. -/
structure RuntimeSkillBundle where
  attachmentId : String
  sizeBytes : Nat
  deriving DecidableEq

/-- `EffectiveResourceRow`. -/
structure EffectiveResourceRow where
  id : String
  bindingId : Option String
  resourceId : Option String
  replacesResourceId : Option String
  type : ResourceType
  name : List Char
  scope : Option ResourceScope
  source : EffectiveResourceSource
  mode : EffectiveMode
  defaultEnabled : Option ResourceDefaultEnabled
  payload : Option Json
  originTemplateId : Option String
  repo : Option GitRepo
  promptBody : Option (List Char)
  skillBundle : Option RuntimeSkillBundle
  unavailableReason : Option String
  order : Int

/-- An entry of `unavailable`. -/
structure UnavailableNotice where
  type : ResourceType
  id : String
  reason : String

/-- `EffectiveAgentResources`. -/
structure EffectiveAgentResources where
  version : Nat
  repos : List EffectiveResourceRow
  prompts : List EffectiveResourceRow
  skills : List EffectiveResourceRow
  mcp : List EffectiveResourceRow
  unavailable : List UnavailableNotice

/-- The functions of the runtime: the URL parser, the Unicode functions, and what the schema accepts as the URL of an MCP server.
A text in lower case is not empty when the text is not. -/
structure ResourceEnvironment where
  platform : Platform
  unicode : Unicode
  isMcpUrl : List Char → Bool
  toLowerCase_ne_nil : ∀ t, t ≠ [] → unicode.toLowerCase t ≠ []

/-- What the queries return for an agent. The ids of resources and of bindings are primary keys, and those of resources not empty. -/
structure ResourceQueries where
  agentId : String
  organizationId : String
  version : Nat
  resources : List ResourceDbRow
  bindings : List BindingDbRow
  attachments : List BundleAttachment
  resources_nodup : (resources.map (·.id)).Nodup
  resources_filled : ∀ r ∈ resources, r.id ≠ ""
  bindings_nodup : (bindings.map (·.id)).Nodup

namespace EffectiveResources

open SkillPaths

/-! ## Payloads -/

/-- A required string of a payload. -/
def requiredText (payload : Json) (field : String) (ok : List Char → Bool) : Option (List Char) :=
  match payload.field? field with
  | some (.str s) => if ok s.toList then some s.toList else none
  | _ => none

/-- An optional string of a payload; nothing when it is there and not accepted. -/
def optionalText (payload : Json) (field : String) (ok : List Char → Bool) : Option (Option (List Char)) :=
  match payload.field? field with
  | none => some none
  | some (.str s) => if ok s.toList then some (some s.toList) else none
  | some _ => none

/-- `z.string().min(..).max(..)`. -/
def hasLength (low high : Nat) (t : List Char) : Bool := decide (low ≤ utf16Length t) && decide (utf16Length t ≤ high)

/-- `z.string().min(1)`. -/
def isFilled (t : List Char) : Bool := !t.isEmpty

/-- `repoResourcePayloadSchema`. -/
def parseRepoPayload (env : ResourceEnvironment) (payload : Json) : Option RepoResourcePayload := do
  let url ← requiredText payload "url" (ContextSourceLink.isRepoUrl env.platform)
  let defaultBranch ← optionalText payload "defaultBranch" isFilled
  some ⟨url, defaultBranch⟩

/-- `promptResourcePayloadSchema`, of which only the body is read. -/
def parsePromptPayload (payload : Json) : Option (List Char) := do
  let body ← requiredText payload "body" (hasLength 0 (32 * 1024))
  let _ ← optionalText payload "description" (hasLength 0 1000)
  some body

/-- `metadata` of a Skill. -/
def parseSkillMetadata (payload : Json) : Option Json :=
  match payload.field? "metadata" with
  | none => some (.obj [])
  | some (.obj entries) => some (.obj entries)
  | some _ => none

/-- `skillResourcePayloadSchema`. -/
def parseSkillPayload (payload : Json) : Option ParsedSkillPayload := do
  let name ← requiredText payload "name" (hasLength 1 100)
  let _ ← optionalText payload "namespace" (hasLength 1 100)
  let description ← requiredText payload "description" (hasLength 1 1000)
  let body ← requiredText payload "body" (hasLength 0 (256 * 1024))
  let metadata ← parseSkillMetadata payload
  some ⟨name, description, body, metadata⟩

/-- `MCP_NAME_PATTERN`. -/
def isMcpName (t : List Char) : Bool :=
  match t with
  | [] => false
  | c :: rest => c.isAlphanum && decide (rest.length ≤ 63) && rest.all fun c => c.isAlphanum || c == '_' || c == '-'

/-- Whether the fields of an object are among some. -/
def hasOnly (payload : Json) (fields : List String) : Bool :=
  match payload with
  | .obj entries => entries.all fun entry => fields.contains entry.1
  | _ => false

/-- `args` of an MCP server. -/
def hasTextArgs (payload : Json) : Bool :=
  match payload.field? "args" with
  | none => true
  | some (.arr items) => items.all fun item => item.string?.isSome
  | some _ => false

/-- `noSecretMcpServerSchema`. -/
def parseMcpPayload (env : ResourceEnvironment) (payload : Json) : Option NoSecretMcpServer :=
  match (payload.field? "transport").bind Json.string? with
  | some "stdio" => do
    let name ← requiredText payload "name" isMcpName
    let _ ← requiredText payload "command" isFilled
    if hasTextArgs payload && hasOnly payload ["name", "transport", "command", "args"] then some ⟨name, payload⟩ else none
  | some "http" | some "sse" => do
    let name ← requiredText payload "name" isFilled
    let _ ← requiredText payload "url" env.isMcpUrl
    if hasOnly payload ["name", "transport", "url"] then some ⟨name, payload⟩ else none
  | _ => none

/-! ## Local paths -/

/-- Whether a text begins with a drive letter and a colon. -/
def startsWithDrive (t : List Char) : Bool := t.head?.any Char.isAlpha && t[1]? == some ':'

/-- The shapes of a path that are refused whatever its segments are. -/
def isHardUnsafe (t : List Char) : Bool :=
  ContextSourceLink.trim t != t || t.any isControl || t.contains '\\' || t.head? == some '/' || startsWithDrive t

/-- `getRepoLocalPathSafetyError` is an error. -/
def isUnsafeLocalPath (t : List Char) : Bool :=
  t.isEmpty || isHardUnsafe t || t.contains '/' || t == ['.'] || t == ['.', '.']

/-- `normalizeRepoLocalPath`. -/
def normalizeRepoLocalPath (t : List Char) : List Char :=
  if !t.contains '/' || isHardUnsafe t then t
  else
    let segments := t.splitOn '/'
    if segments.any fun s => s.isEmpty || s == ['.'] || s == ['.', '.'] || ContextSourceLink.trim s != s then t
    else ['-'].intercalate segments

/-- A text that is there and not empty, as the truth of a string has it. -/
def filled (t : Option (List Char)) : Option (List Char) := t.filter isFilled

/-- An id that is there and not empty. -/
def filledId (id : Option String) : Option String := id.filter (· ≠ "")

/-- `normalizedBindingLocalPath`. -/
def normalizedBindingLocalPath (raw : Option (List Char)) : Option (List Char) :=
  ((filled raw).map normalizeRepoLocalPath).filter fun t => !isUnsafeLocalPath t

/-- `deriveRepoLocalPath`. -/
def deriveRepoLocalPath (url : List Char) : List Char :=
  let noQuery := (ContextSourceLink.trim url).takeWhile fun c => c ≠ '?' && c ≠ '#'
  let lastSegment := ((noQuery.splitOnP fun c => c == '/' || c == ':').filter isFilled).getLast?.getD []
  if ".git".toList.isSuffixOf (lastSegment.map Char.toLower) then lastSegment.take (lastSegment.length - 4) else lastSegment

/-- The local path of a repo. -/
def localPathOf (repo : GitRepo) : List Char := repo.localPath.getD (deriveRepoLocalPath repo.url)

/-! ## Rows -/

/-- `resourceSource`. -/
def resourceSource (row : Option ResourceDbRow) (inlinePrompt : Bool) : EffectiveResourceSource :=
  if inlinePrompt then .inline_prompt
  else
    match row with
    | none => .team_available
    | some row =>
      if row.scope = .agent then .agent_extra
      else if row.defaultEnabled = some .recommended then .team_recommended else .team_available

/-- `emptyRow`. -/
def emptyRow (id : String) (bindingId : Option String) (resource : Option ResourceDbRow) (type : ResourceType) (name : List Char)
    (source : EffectiveResourceSource) (mode : EffectiveMode) (order : Int) (replacesResourceId : Option String)
    (promptBody : Option (List Char)) (repo : Option GitRepo) : EffectiveResourceRow where
  id := id
  bindingId := bindingId
  resourceId := resource.map (·.id)
  replacesResourceId := replacesResourceId
  type := type
  name := name
  scope := resource.map (·.scope)
  source := source
  mode := mode
  defaultEnabled := resource.bind (·.defaultEnabled)
  payload := resource.map (·.payload)
  originTemplateId := resource.bind (·.originTemplateId)
  repo := repo
  promptBody := promptBody
  skillBundle := none
  unavailableReason := none
  order := order

/-- `repoRuntimeRow`. -/
def repoRuntimeRow (env : ResourceEnvironment) (resource : ResourceDbRow) (binding : Option BindingDbRow) : Option GitRepo :=
  (parseRepoPayload env resource.payload).map fun payload =>
    ⟨payload.url, (filled (binding.bind (·.repoRef))).or (filled payload.defaultBranch),
      normalizedBindingLocalPath (binding.bind (·.repoLocalPath))⟩

/-- The rows of the first query: those of the organization that are not retired, and are the Team's or the agent's own. -/
def selected (q : ResourceQueries) : List ResourceDbRow :=
  q.resources.filter fun r => decide (r.organizationId = q.organizationId) && decide (r.status ≠ .retired) &&
    (decide (r.scope = .team) || decide (r.ownerAgentId = some q.agentId))

/-- `byId.get`: the last row of an id. -/
def byId (rows : List ResourceDbRow) (id : String) : Option ResourceDbRow := rows.reverse.find? fun r => decide (r.id = id)

/-- A binding disables a resource. -/
def disables (binding : BindingDbRow) (id : String) : Bool := binding.mode == .disable && filledId binding.resourceId == some id

/-- A binding replaces a resource. -/
def replaces (binding : BindingDbRow) (id : String) : Bool :=
  binding.mode == .replace && filledId binding.replacesResourceId == some id

/-- A binding binds a resource. -/
def binds (binding : BindingDbRow) (id : String) : Bool := binding.mode != .disable && filledId binding.resourceId == some id

/-- The Team resources that are on without a binding. -/
def recommended (q : ResourceQueries) : List ResourceDbRow :=
  (selected q).filter fun r => decide (r.scope = .team) && decide (r.defaultEnabled = some .recommended) &&
    !q.bindings.any fun b => disables b r.id || replaces b r.id || binds b r.id

/-- The row of such a resource. -/
def recommendedRow (env : ResourceEnvironment) (resource : ResourceDbRow) : EffectiveResourceRow :=
  emptyRow ("resource:" ++ resource.id) none (some resource) resource.type resource.name .team_recommended .enabled 0 none
    (if resource.type = .prompt then parsePromptPayload resource.payload else none)
    (if resource.type = .repo then repoRuntimeRow env resource none else none)

/-- The resource that a binding names. -/
def boundResource (rows : List ResourceDbRow) (binding : BindingDbRow) : Option ResourceDbRow :=
  (filledId binding.resourceId).bind (byId rows)

/-- The resource that a binding replaces. -/
def replacedResource (rows : List ResourceDbRow) (binding : BindingDbRow) : Option ResourceDbRow :=
  (filledId binding.replacesResourceId).bind (byId rows)

/-- The row of a binding that disables. -/
def disabledRow (binding : BindingDbRow) (resource : ResourceDbRow) : EffectiveResourceRow :=
  emptyRow ("binding:" ++ binding.id ++ ":disabled") (some binding.id) (some resource) binding.type resource.name
    (resourceSource (some resource) false) .disabled binding.order none none none

/-- The row of what a binding replaces. -/
def replacedRow (binding : BindingDbRow) (resource : ResourceDbRow) : EffectiveResourceRow :=
  emptyRow ("binding:" ++ binding.id ++ ":replaced") (some binding.id) (some resource) binding.type resource.name
    (resourceSource (some resource) false) .replaced binding.order binding.replacesResourceId none none

/-- The prompt of a binding itself. -/
def inlinePrompt (binding : BindingDbRow) : Option (List Char) :=
  if binding.type = .prompt then filled binding.inlinePromptBody else none

/-- The row of what a binding binds. -/
def enabledRow (env : ResourceEnvironment) (rows : List ResourceDbRow) (binding : BindingDbRow) : EffectiveResourceRow :=
  let resource := boundResource rows binding
  emptyRow ("binding:" ++ binding.id ++ ":enabled") (some binding.id) resource binding.type
    (((resource.map (·.name)).or ((replacedResource rows binding).map (·.name))).getD "Inline prompt".toList)
    (resourceSource resource (inlinePrompt binding).isSome) .enabled binding.order binding.replacesResourceId
    ((inlinePrompt binding).or (if binding.type = .prompt then resource.bind (parsePromptPayload ·.payload) else none))
    (if binding.type = .repo then resource.bind (repoRuntimeRow env · (some binding)) else none)

/-- The rows of a binding. -/
def bindingRows (env : ResourceEnvironment) (rows : List ResourceDbRow) (binding : BindingDbRow) : List EffectiveResourceRow :=
  if binding.mode = .disable then ((boundResource rows binding).map (disabledRow binding)).toList
  else
    (if binding.mode = .replace then ((replacedResource rows binding).map (replacedRow binding)).toList else []) ++
      if (boundResource rows binding).isNone && (inlinePrompt binding).isNone then [] else [enabledRow env rows binding]

/-- The rows of a bucket before the passes. -/
def bucket (env : ResourceEnvironment) (q : ResourceQueries) (type : ResourceType) : List EffectiveResourceRow :=
  ((recommended q).map (recommendedRow env) ++ q.bindings.flatMap (bindingRows env (selected q))).filter fun row =>
    decide (row.type = type)

/-! ## Passes -/

/-- Rows in their order, as a stable sort leaves them. -/
def sortRows (rows : List EffectiveResourceRow) : List EffectiveResourceRow := rows.insertionSort fun a b => a.order ≤ b.order

/-- A row that a pass makes unavailable. -/
def unavailableRow (reason : String) (row : EffectiveResourceRow) : EffectiveResourceRow :=
  { row with mode := .unavailable, unavailableReason := some reason }

/-- The entry of `unavailable` for a row. -/
def noticeOf (type : ResourceType) (reason : String) (row : EffectiveResourceRow) : UnavailableNotice :=
  ⟨type, (row.resourceId.or row.bindingId).getD row.id, reason⟩

/-- Whether a row is enabled. -/
def isEnabled (row : EffectiveResourceRow) : Bool := row.mode == .enabled

/-- `PROMPT_APPEND_MAX_LENGTH`. -/
def promptAppendMaxLength : Nat := 32000

/-- `renderPromptRow`. -/
def renderPromptRow (name : List Char) (source : EffectiveResourceSource) (body : List Char) : List Char :=
  let title := match source with
    | .inline_prompt => "Agent Prompt (this agent only)".toList
    | .agent_extra => "Agent Prompt Override: ".toList ++ name
    | _ => "Team Prompt: ".toList ++ name
  "\n\n## ".toList ++ title ++ "\n\n".toList ++ ContextSourceLink.trim body ++ ['\n']

/-- `renderPromptRow` of a row. -/
def renderedRow (row : EffectiveResourceRow) : List Char := renderPromptRow row.name row.source (row.promptBody.getD [])

/-- The loop of `applyPromptBudget`, with what was rendered so far and whether the budget was exceeded. -/
def budgetLoop : List Char → Bool → List EffectiveResourceRow → List EffectiveResourceRow × List UnavailableNotice
  | _, _, [] => ([], [])
  | combined, overflow, row :: rows =>
    if !isEnabled row then
      let (done, notices) := budgetLoop combined overflow rows
      (row :: done, notices)
    else if overflow || decide (promptAppendMaxLength < utf16Length combined + utf16Length (renderedRow row)) then
      let (done, notices) := budgetLoop combined true rows
      (unavailableRow "prompt_budget_exceeded" row :: done, noticeOf .prompt "prompt_budget_exceeded" row :: notices)
    else
      let (done, notices) := budgetLoop (combined ++ renderedRow row) overflow rows
      (row :: done, notices)

/-- `applyPromptBudget`. -/
def applyPromptBudget (rows : List EffectiveResourceRow) : List EffectiveResourceRow × List UnavailableNotice :=
  budgetLoop [] false (sortRows rows)

/-- The local path of a row that is enabled, when it has a repo and a path. -/
def rowLocalPath (row : EffectiveResourceRow) : Option (List Char) :=
  if isEnabled row then (row.repo.map localPathOf).filter isFilled else none

/-- The loop of `applyRepoLocalPathDedup`, with the paths seen. -/
def dedupLoop : List (List Char) → List EffectiveResourceRow → List EffectiveResourceRow × List UnavailableNotice
  | _, [] => ([], [])
  | seen, row :: rows =>
    match rowLocalPath row with
    | none =>
      let (done, notices) := dedupLoop seen rows
      (row :: done, notices)
    | some path =>
      let (done, notices) := dedupLoop (path :: seen) rows
      if seen.contains path then
        (unavailableRow "duplicate_local_path" row :: done, noticeOf .repo "duplicate_local_path" row :: notices)
      else (row :: done, notices)

/-- `applyRepoLocalPathDedup`. -/
def applyRepoLocalPathDedup (rows : List EffectiveResourceRow) : List EffectiveResourceRow × List UnavailableNotice :=
  dedupLoop [] (sortRows rows)

/-- A pass that makes the rows unavailable that meet a condition. -/
def markRows (type : ResourceType) (reason : String) (p : EffectiveResourceRow → Bool) (rows : List EffectiveResourceRow) :
    List EffectiveResourceRow × List UnavailableNotice :=
  (rows.map fun row => if p row then unavailableRow reason row else row, (rows.filter p).map (noticeOf type reason))

/-- `MAX_ATTACHMENT_BYTES`. -/
def maxAttachmentBytes : Nat := 10 * 1024 * 1024

/-- `bundleByResource.get`. -/
def bundleOf (rows : List ResourceDbRow) (id : String) : Option String :=
  filledId ((byId (rows.filter fun r => decide (r.type = .skill) && (filledId r.bundleAttachmentId).isSome) id).bind
    (·.bundleAttachmentId))

/-- `ready.get`. -/
def readyBundle (q : ResourceQueries) (bundleId : String) : Option RuntimeSkillBundle :=
  (q.attachments.find? fun a => decide (a.id = bundleId) && decide (a.organizationId = q.organizationId) && a.ready &&
    a.payloadPresent && decide (0 < a.sizeBytes) && decide (a.sizeBytes ≤ maxAttachmentBytes)).map fun a => ⟨a.id, a.sizeBytes⟩

/-- The bundle that the resource of an enabled row points at. -/
def rowBundle (q : ResourceQueries) (row : EffectiveResourceRow) : Option String :=
  if isEnabled row then (filledId row.resourceId).bind (bundleOf (selected q)) else none

/-- `applySkillBundleAvailability`. -/
def applySkillBundleAvailability (q : ResourceQueries) (rows : List EffectiveResourceRow) :
    List EffectiveResourceRow × List UnavailableNotice :=
  let (marked, notices) := markRows .skill "skill_bundle_unavailable"
    (fun row => (rowBundle q row).any fun bundleId => (readyBundle q bundleId).isNone) rows
  (marked.map fun row =>
    match (rowBundle q row).bind (readyBundle q) with
    | some bundle => { row with skillBundle := some bundle }
    | none => row, notices)

/-- The Skill of a row. -/
def rowSkill (row : EffectiveResourceRow) : Option ParsedSkillPayload := row.payload.bind parseSkillPayload

/-- The MCP server of a row. -/
def rowMcp (env : ResourceEnvironment) (row : EffectiveResourceRow) : Option NoSecretMcpServer :=
  row.payload.bind (parseMcpPayload env)

/-- `applyPayloadValidation` of the Skills. -/
def applySkillValidation (rows : List EffectiveResourceRow) : List EffectiveResourceRow × List UnavailableNotice :=
  markRows .skill "invalid_skill_payload" (fun row => isEnabled row && (rowSkill row).isNone) rows

/-- `applyPayloadValidation` of the MCP servers. -/
def applyMcpValidation (env : ResourceEnvironment) (rows : List EffectiveResourceRow) :
    List EffectiveResourceRow × List UnavailableNotice :=
  markRows .mcp "invalid_mcp_payload" (fun row => isEnabled row && (rowMcp env row).isNone) rows

/-- The other rows that share the key of a row. -/
def groupOf (key : EffectiveResourceRow → Option (List Char)) (rows : List EffectiveResourceRow) (k : List Char) :
    List EffectiveResourceRow := rows.filter fun row => decide (key row = some k)

/-- A pass that makes every group of rows unavailable that share a key. -/
def markGroups (type : ResourceType) (reason : String) (key : EffectiveResourceRow → Option (List Char))
    (rows : List EffectiveResourceRow) : List EffectiveResourceRow × List UnavailableNotice :=
  (rows.map fun row => if (key row).any fun k => decide (2 ≤ (groupOf key rows k).length) then unavailableRow reason row else row,
    ((rows.filterMap key).reverse.dedup.reverse.filter fun k => decide (2 ≤ (groupOf key rows k).length)).flatMap fun k =>
      (groupOf key rows k).map (noticeOf type reason))

/-- The target of a Skill: nothing when its name has none. -/
def skillTarget (env : ResourceEnvironment) (name : List Char) : Option (List Char) :=
  (normalizeTeamSkillTargetSlug env.unicode name).toOption

/-- The target of an enabled row. -/
def rowTarget (env : ResourceEnvironment) (row : EffectiveResourceRow) : Option (List Char) :=
  if isEnabled row && (filledId row.resourceId).isSome then (rowSkill row).bind fun skill => skillTarget env skill.name else none

/-- `applySkillTargetNameDedup`. -/
def applySkillTargetNameDedup (env : ResourceEnvironment) (rows : List EffectiveResourceRow) :
    List EffectiveResourceRow × List UnavailableNotice :=
  markGroups .skill "duplicate_skill_target_name" (rowTarget env) rows

/-- The folded name in the payload of an enabled row. -/
def rowMcpName (env : ResourceEnvironment) (row : EffectiveResourceRow) : Option (List Char) :=
  if isEnabled row then
    ((((row.payload.bind (·.field? "name")).bind Json.string?).map fun s => env.unicode.toLowerCase s.toList)).filter isFilled
  else none

/-- `applyMcpNameDedup`. -/
def applyMcpNameDedup (env : ResourceEnvironment) (rows : List EffectiveResourceRow) :
    List EffectiveResourceRow × List UnavailableNotice :=
  markGroups .mcp "duplicate_mcp_name" (rowMcpName env) rows

/-- `resolveEffectiveResources`. -/
def resolveEffectiveResources (env : ResourceEnvironment) (q : ResourceQueries) : EffectiveAgentResources :=
  let (prompts, promptNotices) := applyPromptBudget (bucket env q .prompt)
  let (repos, repoNotices) := applyRepoLocalPathDedup (bucket env q .repo)
  let (skills, bundleNotices) := applySkillBundleAvailability q (bucket env q .skill)
  let (skills, skillNotices) := applySkillValidation skills
  let (mcp, mcpNotices) := applyMcpValidation env (bucket env q .mcp)
  let (skills, targetNotices) := applySkillTargetNameDedup env skills
  let (mcp, nameNotices) := applyMcpNameDedup env mcp
  ⟨q.version, repos, prompts, skills, mcp,
    promptNotices ++ repoNotices ++ bundleNotices ++ skillNotices ++ mcpNotices ++ targetNotices ++ nameNotices⟩

/-! ## The runtime config -/

/-- The enabled prompt rows with a body. -/
def promptRows (rows : List EffectiveResourceRow) : List EffectiveResourceRow :=
  rows.filter fun row => isEnabled row && (filled row.promptBody).isSome

/-- `runtimePromptAppend`. -/
def runtimePromptAppend (rows : List EffectiveResourceRow) : List Char :=
  ContextSourceLink.trim ((sortRows (promptRows rows)).flatMap renderedRow)

/-- `PromptSection`. -/
structure PromptSection where
  scope : ResourceScope
  name : List Char
  body : List Char
  editable : Bool

/-- `runtimePromptSections`. -/
def runtimePromptSections (rows : List EffectiveResourceRow) : List PromptSection :=
  (sortRows (promptRows rows)).map fun row =>
    let editable := decide (row.source = .inline_prompt) && (filledId row.replacesResourceId).isNone
    ⟨if row.source = .inline_prompt ∨ row.source = .agent_extra then .agent else .team, if editable then [] else row.name,
      ContextSourceLink.trim (row.promptBody.getD []), editable⟩

/-- `RuntimeResourceSkill`. -/
structure RuntimeResourceSkill where
  resourceId : String
  skill : ParsedSkillPayload
  bundle : Option RuntimeSkillBundle

/-- `runtimeSkills`: nothing when a payload does not parse. -/
def runtimeSkills (rows : List EffectiveResourceRow) : Option (List RuntimeResourceSkill) :=
  (rows.filter fun row => isEnabled row && (filledId row.resourceId).isSome).mapM fun row =>
    (rowSkill row).map fun skill => ⟨row.resourceId.getD "", skill, row.skillBundle⟩

/-- `runtimeMcp`: nothing when a payload does not parse. -/
def runtimeMcp (env : ResourceEnvironment) (rows : List EffectiveResourceRow) : Option (List NoSecretMcpServer) :=
  (rows.filter isEnabled).mapM (rowMcp env)

/-- The MCP servers of a stored config. Its schema accepts no two names that fold to one. -/
structure StoredMcpServers (env : ResourceEnvironment) where
  servers : List NoSecretMcpServer
  nodup : (servers.map fun server => env.unicode.toLowerCase server.name).Nodup

/-- What `resolveRuntimeConfig` sets of a config. -/
structure RuntimeConfig where
  version : Nat
  gitRepos : List GitRepo
  append : List Char
  sections : List PromptSection
  mcpServers : List NoSecretMcpServer
  resourceSkills : List RuntimeResourceSkill

/-- The config from the effective resources, the resolved MCP servers and the Skills. -/
def runtimeConfigOf (env : ResourceEnvironment) (effective : EffectiveAgentResources) (stored : StoredMcpServers env)
    (resolvedMcp : List NoSecretMcpServer) (resourceSkills : List RuntimeResourceSkill) : RuntimeConfig where
  version := effective.version
  gitRepos := (effective.repos.filter isEnabled).filterMap (·.repo)
  append := runtimePromptAppend effective.prompts
  sections := runtimePromptSections effective.prompts
  mcpServers := if effective.mcp.isEmpty && !stored.servers.isEmpty then stored.servers else resolvedMcp
  resourceSkills := resourceSkills

/-- `resolveRuntimeConfig`, for a config with some MCP servers stored. -/
def resolveRuntimeConfig (env : ResourceEnvironment) (q : ResourceQueries) (stored : StoredMcpServers env) :
    Option RuntimeConfig := do
  let effective := resolveEffectiveResources env q
  let resolvedMcp ← runtimeMcp env effective.mcp
  let resourceSkills ← runtimeSkills effective.skills
  some (runtimeConfigOf env effective stored resolvedMcp resourceSkills)

end EffectiveResources

end FirstTree
