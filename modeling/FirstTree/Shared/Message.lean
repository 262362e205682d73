import Mathlib.Data.Rat.Defs
import FirstTree.Lib.AssocList

/-!
# Messages on the wire

JSON values, the metadata object of a message, and the enumerations a send carries: format, source, purpose. A metadata object is an
association list over its keys, of which only the value of each key is ever compared.
-/

namespace FirstTree

/-- A JSON value. A number is the rational it denotes. -/
inductive Json where
  | null
  | bool (value : Bool)
  | num (value : Rat)
  | str (value : String)
  | arr (items : List Json)
  | obj (entries : List (String × Json))

/-- The metadata object of a message. -/
abbrev Metadata := AList fun _ : String => Json

/-- `MESSAGE_FORMATS`. -/
inductive MessageFormat where
  | text | markdown | card | reference | file | request
  deriving DecidableEq

/-- `MESSAGE_SOURCES`. -/
inductive MessageSource where
  | web | cli | github | gitlab | api | feishu
  deriving DecidableEq

/-- `messagePurposeSchema`: why a message is sent. It is never stored. -/
inductive MessagePurpose where
  | agentFinalText | teamSkillInvocation
  deriving DecidableEq

/-- `AGENT_TYPES`, with the type the trusted channel ingress sends under. -/
inductive SenderType where
  | human | agent | integration
  deriving DecidableEq

/-- `AGENT_STATUSES`. -/
inductive AgentStatus where
  | active | suspended | deleted
  deriving DecidableEq

/-- How an agent is in a chat. -/
inductive AccessMode where
  | speaker | watcher
  deriving DecidableEq, Repr

namespace Json

/-- The text of a string. -/
def string? : Json → Option String
  | str s => some s
  | _ => none

/-- A string has its text. -/
@[simp] theorem string?_str (s : String) : string? (str s) = some s := rfl

/-- The strings of an array, none when the value is no array. -/
def strings : Option Json → List String
  | some (arr items) => items.filterMap string?
  | _ => []

/-- The value of a field of an object. A field written twice holds its last value. -/
def field? (name : String) : Json → Option Json
  | obj entries => (entries.reverse.find? (·.1 = name)).map (·.2)
  | _ => none

/-- `value === true`. -/
def isTrue : Option Json → Bool
  | some (bool true) => true
  | _ => false

end Json

/-- What `->>` reads: of a string its text. -/
structure JsonText where
  read : Json → Option String
  read_str : ∀ text, read (.str text) = some text

/-! ## Metadata keys -/

/-- `ADDRESSED_AGENT_IDS_METADATA_KEY`. -/
def addressedAgentIdsKey : String := "addressedAgentIds"

/-- `ASK_AGENT_METADATA_KEY`. -/
def askAgentKey : String := "askAgent"

/-- `CLI_BODY_ORIGIN_METADATA_KEY`. -/
def cliBodyOriginKey : String := "cliBodyOrigin"

/-- `CRON_TRIGGER_METADATA_KEY`. -/
def cronTriggerKey : String := "cronTrigger"

/-- `CONTEXT_DECISION_METADATA_KEY`. -/
def contextDecisionKey : String := "contextDecision"

/-- `FIRST_CHAT_ORIENTATION_METADATA_KEY`. -/
def firstChatOrientationKey : String := "firstChatOrientation"

/-- `FIRST_CHAT_ORIENTATION_CONTINUATION_METADATA_KEY`. -/
def firstChatOrientationContinuationKey : String := "firstChatOrientationContinuation"

/-- `AGENT_FINAL_TEXT_METADATA_KEY`. -/
def agentFinalTextKey : String := "agentFinalText"

/-- `RUNTIME_NOTICE_METADATA_KEY`. -/
def runtimeNoticeKey : String := "runtimeNotice"

/-- `TEAM_SKILL_INVOCATION_METADATA_KEY`. -/
def teamSkillInvocationKey : String := "teamSkillInvocation"

/-! ## Resolutions of a request -/

/-- How a request is closed. -/
inductive ResolutionKind where
  | answered | closed
  deriving DecidableEq

/-- `requestResolutionSchema`: the request a message resolves, and how. -/
structure RequestResolution where
  request : String
  kind : ResolutionKind
  reason : Option String
  deriving DecidableEq

/-- `kind: z.enum(["answered", "closed"])`. -/
def ResolutionKind.parse : Option Json → Option ResolutionKind
  | some (.str kind) => if kind = "answered" then some .answered else if kind = "closed" then some .closed else none
  | _ => none

/-- `reason: z.string().optional()`. -/
def RequestResolution.parseReason : Option Json → Option (Option String)
  | none => some none
  | some (.str reason) => some (some reason)
  | _ => none

/-- `requestResolutionSchema.safeParse` of the `resolves` of a message. -/
def RequestResolution.parse : Option Json → Option RequestResolution
  | some (.obj entries) => do
    let request ← ((Json.obj entries).field? "request").bind Json.string?
    guard (request ≠ "")
    let kind ← ResolutionKind.parse ((Json.obj entries).field? "kind")
    let reason ← RequestResolution.parseReason ((Json.obj entries).field? "reason")
    pure ⟨request, kind, reason⟩
  | _ => none

end FirstTree
