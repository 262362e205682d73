import FirstTree.Lib.AssocList
import FirstTree.Lib.Transactions
import FirstTree.Server.AgentRuntime

/-!
# The config of an agent and its writers

The row of one agent in `agent_configs` with its three writers: the update calls of any number of instances of the debounced config
service, the commit of a runtime switch, and the version bumps of the resources service. A statement reads the committed row; an
update waits while another transaction holds the row. The prompt, the MCP servers and the repos of a payload are one part of it,
which no patch may touch.
-/

namespace FirstTree

open Transactions AgentRuntime

/-- `runtimeProviderSchema`. -/
inductive RuntimeProvider where
  | amp | deepseekHarness | claudeCode | claudeCodeTui | codex | cursor | grok | antigravity | kimiCode | opencode | pi
  deriving DecidableEq

/-- An `EnvEntry`. -/
structure EnvEntry where
  key : String
  value : String
  sensitive : Bool
  deriving DecidableEq

/-- An `AgentRuntimeConfigPayload`. A field that only some providers have may be missing. -/
structure ConfigPayload (Rest Skill : Type) where
  kind : RuntimeProvider
  model : String
  env : List EnvEntry
  reasoningEffort : Option String
  serviceTier : Option String
  rest : Rest
  resourceSkills : List Skill

/-- An `AgentRuntimeConfigPatch`, with whether it has a field of the legacy writes. -/
structure ConfigPatch where
  model : Option String
  env : Option (List EnvEntry)
  reasoningEffort : Option String
  serviceTier : Option String
  hasMcpServers : Bool
  hasGitReposOrPrompt : Bool

/-- What the payload schema says of an env key and of the rest of a payload, which it may normalise. -/
structure PayloadSchema (Rest : Type) where
  envKey : String → Bool
  parseRest : Rest → Option Rest

namespace AgentConfig

variable {Rest Skill : Type}

/-! ## Payloads -/

/-- The reasoning efforts of a provider, when it has any. -/
def reasoningEfforts : RuntimeProvider → Option (List String)
  | .claudeCode => some ["", "low", "medium", "high", "max"]
  | .claudeCodeTui => some ["", "low", "medium", "high", "max"]
  | .codex => some ["low", "medium", "high", "xhigh", "max", "ultra"]
  | .grok => some ["", "low", "medium", "high"]
  | .antigravity => some ["", "low", "medium", "high"]
  | _ => none

/-- The default of the reasoning effort, for the providers that have one. -/
def defaultReasoningEffort : RuntimeProvider → String
  | .codex => "high"
  | _ => ""

/-- The default model of a provider. -/
def defaultModel : RuntimeProvider → String
  | .claudeCode => "opus"
  | .claudeCodeTui => "opus"
  | _ => ""

/-- The reasoning effort of a parsed payload: a provider without one strips it. -/
def parseReasoningEffort (kind : RuntimeProvider) (effort : Option String) : Option (Option String) :=
  match reasoningEfforts kind with
  | none => some none
  | some efforts =>
    if effort.getD (defaultReasoningEffort kind) ∈ efforts then some (some (effort.getD (defaultReasoningEffort kind))) else none

/-- The service tier of a parsed payload: a provider other than Codex strips it. -/
def parseServiceTier (kind : RuntimeProvider) (tier : Option String) : Option (Option String) :=
  if kind = .codex then (if tier.getD "default" = "" then none else some (some (tier.getD "default"))) else some none

/-- `agentRuntimeConfigPayloadSchema.parse`. -/
def parsePayload (schema : PayloadSchema Rest) (payload : ConfigPayload Rest Skill) : Option (ConfigPayload Rest Skill) :=
  if (payload.kind = .amp → payload.model ∈ ["", "low", "medium", "high", "ultra"]) ∧
    (∀ entry ∈ payload.env, schema.envKey entry.key = true) ∧
      (payload.env.map (·.key)).Nodup then do
    let effort ← parseReasoningEffort payload.kind payload.reasoningEffort
    let tier ← parseServiceTier payload.kind payload.serviceTier
    let rest ← schema.parseRest payload.rest
    pure { payload with reasoningEffort := effort, serviceTier := tier, rest := rest }
  else none

/-- `ENV_REDACTED_PLACEHOLDER`. -/
def envRedactedPlaceholder : String := "***"

/-- `redact`. -/
def redact (payload : ConfigPayload Rest Skill) : ConfigPayload Rest Skill :=
  { payload with
    env := payload.env.map fun entry => if entry.sensitive then { entry with value := envRedactedPlaceholder } else entry }

/-- `mergeEnv`, with the ciphertexts of the entries it encrypts. -/
def mergeEnv (cipher : EnvEntry → String) (currentEnv patchEnv : List EnvEntry) : List EnvEntry :=
  patchEnv.map fun entry =>
    if entry.sensitive = false then entry
    else
      match currentEnv.reverse.find? fun previous => decide (previous.key = entry.key) with
      | some previous =>
        if entry.value = envRedactedPlaceholder ∧ previous.sensitive = true then { previous with sensitive := true }
        else { entry with value := cipher entry }
      | none => { entry with value := cipher entry }

/-- `applyPatch`, after `rejectLegacyMcpWrite`. The merge has no resource skills. -/
def applyPatch (cipher : EnvEntry → String) (current : ConfigPayload Rest Skill) (patch : ConfigPatch) :
    Except ServiceError (ConfigPayload Rest Skill) := do
  refuse (patch.hasMcpServers = true)
    (.badRequest "Legacy per-agent MCP config writes are disabled. MCP configuration will be managed by Team MCP Resources.")
  refuse (patch.hasGitReposOrPrompt = true)
    (.badRequest "Legacy per-agent prompt, Git repo, and MCP config writes are disabled. Use Agent Resources or Team Resources.")
  refuse (patch.reasoningEffort.isSome = true ∧ current.reasoningEffort = none)
    (.badRequest "reasoningEffort is not supported by this agent's runtime provider")
  refuse (patch.serviceTier.isSome = true ∧ current.serviceTier = none)
    (.badRequest "serviceTier is only supported by the Codex runtime provider")
  pure
    { kind := current.kind, model := patch.model.getD current.model
      env := match patch.env with
        | some env => mergeEnv cipher current.env env
        | none => current.env
      reasoningEffort := patch.reasoningEffort.or current.reasoningEffort
      serviceTier := patch.serviceTier.or current.serviceTier
      rest := current.rest, resourceSkills := [] }

/-- The payload `commitWrite` stores: the patch on the current payload, under the agent's provider. -/
def mergedPayload (schema : PayloadSchema Rest) (cipher : EnvEntry → String) (provider : RuntimeProvider)
    (current : ConfigPayload Rest Skill) (patch : ConfigPatch) : Except ServiceError (ConfigPayload Rest Skill) := do
  let merged ← applyPatch cipher current patch
  match parsePayload schema { merged with kind := provider } with
  | some validated => .ok validated
  | none => .error (.unexpected "ZodError")

/-- `retagRuntimeConfigPayload`. -/
def retagRuntimeConfigPayload (schema : PayloadSchema Rest) (currentPayload : ConfigPayload Rest Skill)
    (targetProvider : RuntimeProvider) : Option (ConfigPayload Rest Skill) := do
  let current ← parsePayload schema currentPayload
  parsePayload schema
    { kind := targetProvider, model := defaultModel targetProvider, env := current.env
      reasoningEffort := some (defaultReasoningEffort targetProvider), serviceTier := some "default", rest := current.rest
      resourceSkills := current.resourceSkills }

/-- `Object.assign`, of a patch over the patch aggregated so far. -/
def assignPatch (aggregated patch : ConfigPatch) : ConfigPatch :=
  { model := patch.model.or aggregated.model, env := patch.env.or aggregated.env
    reasoningEffort := patch.reasoningEffort.or aggregated.reasoningEffort, serviceTier := patch.serviceTier.or aggregated.serviceTier
    hasMcpServers := aggregated.hasMcpServers || patch.hasMcpServers
    hasGitReposOrPrompt := aggregated.hasGitReposOrPrompt || patch.hasGitReposOrPrompt }

/-- The patches of the callers of a flush, each assigned over the ones before it. -/
def aggregatePatches (patches : List ConfigPatch) : ConfigPatch := patches.foldl assignPatch ⟨none, none, none, none, false, false⟩

end AgentConfig

/-! ## The row and its writers -/

/-- The version and the payload of the row. -/
structure ConfigRow (Rest Skill : Type) where
  version : Nat
  payload : ConfigPayload Rest Skill

/-- A caller of `update`, waiting for its answer. -/
structure ConfigAwaiter (Call : Type) where
  id : Call
  patch : ConfigPatch
  expectedVersion : Nat
  updatedBy : String

/-- The answer of an update call. -/
inductive ConfigOutcome (Rest Skill : Type) where
  | resolved (config : ConfigRow Rest Skill)
  | rejected (error : ServiceError)

/-- What a committed write did to the payload. -/
inductive ConfigChange where
  | patch (patch : ConfigPatch) (provider : RuntimeProvider) (cipher : EnvEntry → String)
  | retag (target : RuntimeProvider)
  | bump

/-- A committed write: its change, the callers whose patches it carries, and the row before and after it. -/
structure ConfigWrite (Call Rest Skill : Type) where
  change : ConfigChange
  contributors : List (ConfigAwaiter Call)
  before : ConfigRow Rest Skill
  after : ConfigRow Rest Skill

/-- An instance of the config service: whether a burst is marked, the windows whose timers run, and the callers in its pending
slot. -/
structure ConfigInstance (Call : Type) where
  burst : Bool
  windows : Nat
  pending : List (ConfigAwaiter Call)

/-- The committed row and provider, the instances, the calls begun and settled, and the writes committed. -/
structure ConfigStore (Inst Call Rest Skill : Type) where
  row : ConfigRow Rest Skill
  provider : RuntimeProvider
  instances : AList fun _ : Inst => ConfigInstance Call
  begun : List (ConfigAwaiter Call)
  settled : List (Call × ConfigOutcome Rest Skill)
  history : List (ConfigWrite Call Rest Skill)

/-- A `commitWrite`: the callers it is for, their patch and version, and the instance whose burst it began. -/
structure ConfigCommit (Inst Call : Type) where
  awaiters : List (ConfigAwaiter Call)
  patch : ConfigPatch
  expectedVersion : Nat
  firstOfBurst : Option Inst

/-- The statement a writer runs next, with what it has read. -/
inductive ConfigStatement (Inst Call Rest Skill : Type) where
  | flushRead (awaiters : List (ConfigAwaiter Call))
  | readRow (commit : ConfigCommit Inst Call)
  | readProvider (commit : ConfigCommit Inst Call) (current : ConfigPayload Rest Skill)
  | updateRow (commit : ConfigCommit Inst Call) (change : ConfigChange) (validated : ConfigPayload Rest Skill)
  | switchRead (target : RuntimeProvider)
  | switchWrite (target : RuntimeProvider) (snapshot : ConfigPayload Rest Skill)
  | switchDone (target : RuntimeProvider) (row : ConfigRow Rest Skill)
  | bumpWrite
  | bumpDone (row : ConfigRow Rest Skill)

/-- The agent's config with the writers open on it, by number. -/
abbrev ConfigSystem (Inst Call Rest Skill : Type) :=
  System (ConfigStore Inst Call Rest Skill) Nat (ConfigStatement Inst Call Rest Skill)

/-- What can happen: an update is called, a timer of an instance fires, a switch that has moved the route or a bump begins, and a
writer runs its next statement or rolls back. -/
inductive ConfigOp (Inst Call : Type) where
  | update (instance_ : Inst) (job : Nat) (call : ConfigAwaiter Call)
  | slotTimer (instance_ : Inst) (job : Nat)
  | burstTimer (instance_ : Inst) (job : Nat)
  | switchCommit (job : Nat) (target : RuntimeProvider)
  | bumpVersion (job : Nat)
  | run (job : Nat) (cipher : EnvEntry → String)
  | rollback (job : Nat)

namespace AgentConfig

variable {Inst Call Rest Skill : Type} [DecidableEq Inst] [DecidableEq Call]

/-- The instance of a name. -/
def instanceOf (store : ConfigStore Inst Call Rest Skill) (i : Inst) : ConfigInstance Call :=
  (store.instances.lookup i).getD ⟨false, 0, []⟩

/-- The store with another state of an instance. -/
def setInstance (store : ConfigStore Inst Call Rest Skill) (i : Inst) (new : ConfigInstance Call) :
    ConfigStore Inst Call Rest Skill :=
  { store with instances := store.instances.insert i new }

/-- The callers are answered. -/
def settle (store : ConfigStore Inst Call Rest Skill) (awaiters : List (ConfigAwaiter Call))
    (outcome : ConfigAwaiter Call → ConfigOutcome Rest Skill) : ConfigStore Inst Call Rest Skill :=
  { store with settled := store.settled ++ awaiters.map fun awaiter => (awaiter.id, outcome awaiter) }

/-- `commitWrite` throws: its callers are rejected, and the burst it began is released. -/
def rejectCommit (store : ConfigStore Inst Call Rest Skill) (commit : ConfigCommit Inst Call) (error : ServiceError) :
    ConfigStore Inst Call Rest Skill :=
  let left := settle store commit.awaiters fun _ => .rejected error
  match commit.firstOfBurst with
  | some i => setInstance left i { instanceOf left i with burst := false }
  | none => left

/-- `commitWrite` returns: its callers are resolved with the redacted row, and the window of the burst it began opens. -/
def resolveCommit (store : ConfigStore Inst Call Rest Skill) (commit : ConfigCommit Inst Call) (row : ConfigRow Rest Skill) :
    ConfigStore Inst Call Rest Skill :=
  let left := settle store commit.awaiters fun _ => .resolved ⟨row.version, redact row.payload⟩
  match commit.firstOfBurst with
  | some i => setInstance left i { instanceOf left i with burst := true, windows := (instanceOf left i).windows + 1 }
  | none => left

/-- A write of the row is committed. -/
def commitRow (store : ConfigStore Inst Call Rest Skill) (change : ConfigChange) (contributors : List (ConfigAwaiter Call))
    (row : ConfigRow Rest Skill) : ConfigStore Inst Call Rest Skill :=
  { store with row := row, history := store.history ++ [⟨change, contributors, store.row, row⟩] }

/-- The text of a version mismatch. -/
def versionMismatch (agentId : String) (expected got : Nat) : ServiceError :=
  .conflict ("Agent config \"" ++ agentId ++ "\" version mismatch: expected " ++ toString expected ++ ", got " ++ toString got)

/-- A writer that holds the row until its transaction ends. -/
def holdsRow : ConfigStatement Inst Call Rest Skill → Bool
  | .switchDone _ _ => true
  | .bumpDone _ => true
  | _ => false

/-- A writer of a switch, which holds the agent's row. -/
def isSwitch : ConfigStatement Inst Call Rest Skill → Bool
  | .switchRead _ => true
  | .switchWrite _ _ => true
  | .switchDone _ _ => true
  | _ => false

variable (schema : PayloadSchema Rest) (agentId : String)

/-- The next statement of a writer, and its statement after it when it goes on; none when it has to wait for the row. -/
def runStatement (store : ConfigStore Inst Call Rest Skill) (locked : Bool) (cipher : EnvEntry → String) :
    ConfigStatement Inst Call Rest Skill →
      Option (ConfigStore Inst Call Rest Skill × Option (ConfigStatement Inst Call Rest Skill))
  | .flushRead awaiters =>
    match parsePayload schema store.row.payload with
    | none => some (settle store awaiters fun _ => .rejected (.unexpected "ZodError"), none)
    | some _ =>
      let valid := awaiters.filter fun a => decide (a.expectedVersion = store.row.version)
      let stale := awaiters.filter fun a => !decide (a.expectedVersion = store.row.version)
      some (settle store stale fun a => .rejected (versionMismatch agentId a.expectedVersion store.row.version),
        if valid = [] then none else some (.readRow ⟨valid, aggregatePatches (valid.map (·.patch)), store.row.version, none⟩))
  | .readRow commit =>
    match parsePayload schema store.row.payload with
    | none => some (rejectCommit store commit (.unexpected "ZodError"), none)
    | some current =>
      if store.row.version ≠ commit.expectedVersion then
        some (rejectCommit store commit (versionMismatch agentId commit.expectedVersion store.row.version), none)
      else some (store, some (.readProvider commit current))
  | .readProvider commit current =>
    match mergedPayload schema cipher store.provider current commit.patch with
    | .error error => some (rejectCommit store commit error, none)
    | .ok validated => some (store, some (.updateRow commit (.patch commit.patch store.provider cipher) validated))
  | .updateRow commit change validated =>
    if locked then none
    else if store.row.version = commit.expectedVersion then
      let row := ⟨store.row.version + 1, validated⟩
      some (resolveCommit (commitRow store change commit.awaiters row) commit row, none)
    else
      some (rejectCommit store commit
        (.conflict ("Agent config \"" ++ agentId ++ "\" version mismatch (lost race during commit)")), none)
  | .switchRead target => some (store, some (.switchWrite target store.row.payload))
  | .switchWrite target snapshot =>
    if locked then none
    else
      match retagRuntimeConfigPayload schema snapshot target with
      | some payload => some (store, some (.switchDone target ⟨store.row.version + 1, payload⟩))
      | none => some (store, none)
  | .switchDone target row => some ({ commitRow store (.retag target) [] row with provider := target }, none)
  | .bumpWrite => if locked then none else some (store, some (.bumpDone ⟨store.row.version + 1, store.row.payload⟩))
  | .bumpDone row => some (commitRow store .bump [] row, none)

/-- A writer of a number that is not in use begins. -/
def begin (s : ConfigSystem Inst Call Rest Skill) (store : ConfigStore Inst Call Rest Skill) (job : Nat)
    (next : ConfigStatement Inst Call Rest Skill) : Option (ConfigSystem Inst Call Rest Skill) :=
  if (s.find job).isNone then some (s.put store job (some next)) else none

/-- `flushAgent` of an instance begins: the pending slot is taken before anything is read. -/
def flushAgent (s : ConfigSystem Inst Call Rest Skill) (store : ConfigStore Inst Call Rest Skill) (i : Inst) (job : Nat) :
    Option (ConfigSystem Inst Call Rest Skill) :=
  if (instanceOf store i).pending = [] then some { s with store := store }
  else begin s (setInstance store i { instanceOf store i with pending := [] }) job (.flushRead (instanceOf store i).pending)

/-- One step. A call is made once, the timer of a slot runs while the slot exists, and a switch holds the agent's row. -/
def step (s : ConfigSystem Inst Call Rest Skill) : ConfigOp Inst Call → Option (ConfigSystem Inst Call Rest Skill)
  | .update i job call =>
    if call.id ∈ s.store.begun.map (·.id) then none
    else
      let store := { s.store with begun := call :: s.store.begun }
      if (instanceOf store i).burst then
        some { s with store := setInstance store i { instanceOf store i with pending := (instanceOf store i).pending ++ [call] } }
      else
        begin s (setInstance store i { instanceOf store i with burst := true }) job
          (.readRow ⟨[call], call.patch, call.expectedVersion, some i⟩)
  | .slotTimer i job => if (instanceOf s.store i).pending = [] then none else flushAgent s s.store i job
  | .burstTimer i job =>
    if (instanceOf s.store i).windows = 0 then none
    else
      flushAgent s (setInstance s.store i
        { instanceOf s.store i with burst := false, windows := (instanceOf s.store i).windows - 1 }) i job
  | .switchCommit job target => if (s.others job).any isSwitch then none else begin s s.store job (.switchRead target)
  | .bumpVersion job => begin s s.store job .bumpWrite
  | .run job cipher => (s.find job).bind fun next =>
      (runStatement schema agentId s.store ((s.others job).any holdsRow) cipher next).map fun ran => s.put ran.1 job ran.2
  | .rollback job => (s.find job).bind fun next => match next with
      | .switchRead _ => some (s.put s.store job none)
      | .switchWrite _ _ => some (s.put s.store job none)
      | .switchDone _ _ => some (s.put s.store job none)
      | .bumpWrite => some (s.put s.store job none)
      | .bumpDone _ => some (s.put s.store job none)
      | _ => none

/-- Nothing has been called yet. -/
def init (row : ConfigRow Rest Skill) (provider : RuntimeProvider) : ConfigSystem Inst Call Rest Skill :=
  .idle { row := row, provider := provider, instances := ∅, begun := [], settled := [], history := [] }

end AgentConfig

end FirstTree
