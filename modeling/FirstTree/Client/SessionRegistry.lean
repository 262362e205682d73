import FirstTree.Lib.OrderedMap
import FirstTree.Lib.Runs

/-!
# The session registry of the client

The registry of provider sessions by chat, with the nonces a Reset leaves behind: its debounced and immediate writes, the file they
end in, and how a Reset rotates a nonce. A chat is a plain identifier, a moment its milliseconds.
-/

namespace FirstTree

/-- A nonce: a text that is not empty, as `randomUUID` gives it. -/
abbrev ResetNonce := { nonce : String // nonce ≠ "" }

/-- What a provider needs to go on with a session. -/
structure ProviderContinuation where
  kind : String
  provider : String
  sessionId : String
  messageId : String
  deriving DecidableEq

/-- An entry as the caller holds it. The moment is none where it is `NaN`. -/
structure RegistryEntry where
  claudeSessionId : String
  lastActivity : Option Int
  status : String
  continuation : Option ProviderContinuation
  deriving DecidableEq

/-- An entry as the file holds it: the moment its ISO text stands for, none where that is no date. -/
structure PersistedEntry where
  claudeSessionId : String
  lastActivity : Option Int
  status : String
  continuation : Option ProviderContinuation
  deriving DecidableEq

/-- What the file holds. An entry may be null, and a nonce no text. -/
structure RegistryData (Chat : Type) where
  version : Nat
  entries : List (Chat × Option PersistedEntry)
  freshStartNonces : List (Chat × Option String)

/-- A file: one that cannot be read or is no JSON object, or one with data. -/
inductive RegistryFile (Chat : Type) where
  | unreadable
  | data (data : RegistryData Chat)

/-- A map that was passed to `save` or a flush. The number of the call is its identity. -/
structure RegistryArgument (Chat : Type) where
  call : Nat
  entries : OrderedMap Chat RegistryEntry

/-- The registry in memory. Of the timer only matters whether it is set. -/
structure SessionRegistry (Chat : Type) where
  writeTimer : Bool
  pendingEntries : Option (RegistryArgument Chat)
  freshStartNonces : OrderedMap Chat ResetNonce
  pendingResetRotations : OrderedMap Chat ResetNonce

/-- The registry with its file, the arguments of the calls so far, and the numbers of those that were written. -/
structure RegistryHost (Chat : Type) where
  registry : SessionRegistry Chat
  file : Option (RegistryFile Chat)
  calls : List (OrderedMap Chat RegistryEntry)
  written : List Nat

/-- `REGISTRY_VERSION`. -/
def registryVersion : Nat := 1

/-- `parseProviderContinuation`. -/
def parseProviderContinuation (c : ProviderContinuation) : Option ProviderContinuation :=
  if c.kind = "provider_continuation" ∧ c.provider ≠ "" ∧ c.sessionId ≠ "" ∧ c.messageId ≠ "" then some c else none

/-- A moment that `toISOString` does not throw for. -/
def isoMoment (lastActivity : Option Int) : Option Int := lastActivity.filter fun ms =>
    decide (-8640000000000000 ≤ ms ∧ ms ≤ 8640000000000000)

namespace SessionRegistry

variable {Chat : Type} [DecidableEq Chat]

/-- A new registry. -/
def init : SessionRegistry Chat := ⟨false, none, .empty, .empty⟩

/-! ## Loading -/

/-- The loop over the entries of the file, and whether it came to its end: reading a null entry throws. -/
def loadEntries (entries : OrderedMap Chat RegistryEntry) :
    List (Chat × Option PersistedEntry) → OrderedMap Chat RegistryEntry × Bool
  | [] => (entries, true)
  | (_, none) :: _ => (entries, false)
  | (chatId, some e) :: rest =>
    loadEntries (entries.set chatId ⟨e.claudeSessionId, e.lastActivity, e.status, e.continuation.bind parseProviderContinuation⟩) rest

/-- The loop over the nonces of the file. -/
def loadNonces (nonces : OrderedMap Chat ResetNonce) : List (Chat × Option String) → OrderedMap Chat ResetNonce
  | [] => nonces
  | (_, none) :: rest => loadNonces nonces rest
  | (chatId, some nonce) :: rest => loadNonces (if h : nonce ≠ "" then nonces.set chatId ⟨nonce, h⟩ else nonces) rest

/-- What `loadSnapshot` reads from the file: mappings and nonces. What throws ends the reading. -/
def readFile : Option (RegistryFile Chat) → OrderedMap Chat RegistryEntry × OrderedMap Chat ResetNonce
  | some (.data data) =>
    if data.version ≠ registryVersion then (.empty, .empty)
    else
      match loadEntries .empty data.entries with
      | (entries, true) => (entries, loadNonces .empty data.freshStartNonces)
      | (entries, false) => (entries, .empty)
  | _ => (.empty, .empty)

/-- `loadSnapshot`. -/
def loadSnapshot (s : SessionRegistry Chat) (file : Option (RegistryFile Chat)) :
    (OrderedMap Chat RegistryEntry × OrderedMap Chat ResetNonce) × SessionRegistry Chat :=
  (readFile file, { s with freshStartNonces := (readFile file).2, pendingResetRotations := .empty })

/-! ## Resets -/

/-- `getFreshStartNonce`. -/
def getFreshStartNonce (s : SessionRegistry Chat) (chatId : Chat) : Option ResetNonce := s.freshStartNonces.get? chatId

/-- `rotateFreshStartNonce`; `uuid` is the nonce a new rotation draws. -/
def rotateFreshStartNonce (s : SessionRegistry Chat) (chatId : Chat) (uuid : ResetNonce) : ResetNonce × SessionRegistry Chat :=
  match s.pendingResetRotations.get? chatId with
  | some pending => (pending, s)
  | none =>
    (uuid, { s with
      pendingResetRotations := s.pendingResetRotations.set chatId uuid
      freshStartNonces := s.freshStartNonces.set chatId uuid })

/-- `markResetNonceDurable`. -/
def markResetNonceDurable (s : SessionRegistry Chat) (chatId : Chat) : SessionRegistry Chat :=
  { s with pendingResetRotations := s.pendingResetRotations.erase chatId }

/-! ## Writing -/

/-- An entry as it is written; none where `toISOString` throws. -/
def persistEntry (e : RegistryEntry) : Option PersistedEntry :=
  (isoMoment e.lastActivity).map fun ms => ⟨e.claudeSessionId, some ms, e.status, e.continuation⟩

/-- The entries as they are written, where none throws. -/
def persistEntries (entries : OrderedMap Chat RegistryEntry) : Option (List (Chat × Option PersistedEntry)) :=
  entries.entries.mapM fun e => (persistEntry e.2).map fun p => (e.1, some p)

/-- The data of `writeToDisk`. -/
def registryData (s : SessionRegistry Chat) (entries : OrderedMap Chat RegistryEntry) : Option (RegistryData Chat) :=
  (persistEntries entries).map fun persisted =>
    ⟨registryVersion, persisted, s.freshStartNonces.entries.map fun e => (e.1, some e.2.val)⟩

/-- `clearPendingWrite`. -/
def clearPendingWrite (s : SessionRegistry Chat) : SessionRegistry Chat := { s with writeTimer := false, pendingEntries := none }

end SessionRegistry

namespace RegistryHost

variable {Chat : Type} [DecidableEq Chat]

/-- A registry that was loaded from its file. -/
def loaded (file : Option (RegistryFile Chat)) : RegistryHost Chat := ⟨(SessionRegistry.init.loadSnapshot file).2, file, [], []⟩

/-- `writeToDisk`, and whether it returned: the file is renamed over, or something before that throws. -/
def writeToDisk (h : RegistryHost Chat) (arg : RegistryArgument Chat) (fails : Bool) : Bool × RegistryHost Chat :=
  match h.registry.registryData arg.entries with
  | none => (false, h)
  | some data =>
    if fails then (false, h) else (true, { h with file := some (.data data), written := h.written ++ [arg.call] })

/-- The argument of the next call. -/
def argument (h : RegistryHost Chat) (entries : OrderedMap Chat RegistryEntry) : RegistryArgument Chat := ⟨h.calls.length, entries⟩

/-- `save`. -/
def save (h : RegistryHost Chat) (entries : OrderedMap Chat RegistryEntry) : RegistryHost Chat :=
  { h with
    registry := { h.registry with pendingEntries := some (h.argument entries), writeTimer := true }
    calls := h.calls ++ [entries] }

/-- The writing of a map by `flush` or `flushOrThrow`, and whether it returned: a pending write is dropped first. -/
def writeNow (h : RegistryHost Chat) (arg : RegistryArgument Chat) (fails : Bool) : Bool × RegistryHost Chat :=
  writeToDisk { h with registry := h.registry.clearPendingWrite } arg fails

/-- `flushOrThrow`, and whether it returned. -/
def flushOrThrow (h : RegistryHost Chat) (entries : OrderedMap Chat RegistryEntry) (fails : Bool) : Bool × RegistryHost Chat :=
  writeNow { h with calls := h.calls ++ [entries] } (h.argument entries) fails

/-- `flush`. A failure is logged. -/
def flush (h : RegistryHost Chat) (entries : OrderedMap Chat RegistryEntry) (fails : Bool) : RegistryHost Chat :=
  (h.flushOrThrow entries fails).2

/-- The pending snapshot is flushed and dropped, if there is one. -/
def flushPending (h : RegistryHost Chat) (fails : Bool) : RegistryHost Chat :=
  match h.registry.pendingEntries with
  | none => h
  | some arg =>
    let h := (h.writeNow arg fails).2
    { h with registry := { h.registry with pendingEntries := none } }

/-- The callback of the timer. -/
def timerFires (h : RegistryHost Chat) (fails : Bool) : RegistryHost Chat :=
  flushPending { h with registry := { h.registry with writeTimer := false } } fails

/-- `dispose`. -/
def dispose (h : RegistryHost Chat) (fails : Bool) : RegistryHost Chat :=
  match h.registry.pendingEntries with
  | some _ => h.flushPending fails
  | none => { h with registry := { h.registry with writeTimer := false } }

/-- A call of the registry, or its timer. -/
inductive Op (Chat : Type) where
  | rotateFreshStartNonce (chatId : Chat) (uuid : ResetNonce)
  | markResetNonceDurable (chatId : Chat)
  | save (entries : OrderedMap Chat RegistryEntry)
  | timerFires (fails : Bool)
  | flush (entries : OrderedMap Chat RegistryEntry) (fails : Bool)
  | flushOrThrow (entries : OrderedMap Chat RegistryEntry) (fails : Bool)
  | dispose (fails : Bool)

/-- What an operation leads to; a timer that is not set does not fire. -/
def step (h : RegistryHost Chat) : Op Chat → Option (RegistryHost Chat)
  | .rotateFreshStartNonce chatId uuid => some { h with registry := (h.registry.rotateFreshStartNonce chatId uuid).2 }
  | .markResetNonceDurable chatId => some { h with registry := h.registry.markResetNonceDurable chatId }
  | .save entries => some (h.save entries)
  | .timerFires fails => if h.registry.writeTimer then some (h.timerFires fails) else none
  | .flush entries fails => some (h.flush entries fails)
  | .flushOrThrow entries fails => some (h.flushOrThrow entries fails).2
  | .dispose fails => some (h.dispose fails)

end RegistryHost

end FirstTree
