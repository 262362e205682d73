import Mathlib.Data.Rat.Defs
import FirstTree.Lib.OrderedMap
import FirstTree.Lib.Utf16

/-!
# The replay-fence store of the client

The durable record of the deliveries that must not be replayed: the map in memory, the file it is kept in, and how a fence is set,
cleared and read back. A file is what its text parses to; a text that `JSON.stringify` wrote parses to the value it was written from.
Texts are lists of UTF-16 code units.
-/

namespace FirstTree

open Utf16

/-- A JSON value, its texts in UTF-16. The fields of an object are in the order of `Object.entries`. -/
inductive JsonValue where
  | null
  | bool (value : Bool)
  | number (value : Rat)
  | string (value : List UInt16)
  | array (items : List JsonValue)
  | object (fields : List (List UInt16 × JsonValue))

/-- A field of an object; every other value has none. -/
def JsonValue.field (name : String) : JsonValue → Option JsonValue
  | .object fields => (fields.find? fun f => f.1 = units name).map Prod.snd
  | _ => none

/-- The text of a string. -/
def JsonValue.text? : JsonValue → Option (List UInt16)
  | .string value => some value
  | _ => none

/-- A number as such. -/
def JsonValue.number? : JsonValue → Option Rat
  | .number value => some value
  | _ => none

/-- A fence: the delivery, and the tool effect that made its replay unsafe. -/
structure ReplayFenceEntry where
  chatId : List UInt16
  messageId : List UInt16
  provider : List UInt16
  toolName : List UInt16
  toolUseId : List UInt16
  fencedAt : List UInt16
  deriving DecidableEq

/-- Why the store refuses, or could not write. -/
inductive ReplayFenceError where
  | unreadable (reason : List UInt16)
  | corrupted (reason : List UInt16)
  | unsupportedVersion (version : Option JsonValue)
  | malformedEntries
  | malformedEntry (key : List UInt16)
  | notPersisted (reason : List UInt16)

/-- The message of an error; `string` is the text of a version. -/
def ReplayFenceError.message (string : Option JsonValue → List UInt16) : ReplayFenceError → List UInt16
  | .unreadable reason => units "replay fence store is unreadable: " ++ reason
  | .corrupted reason => units "replay fence store is corrupted: " ++ reason
  | .unsupportedVersion version => units "replay fence store has unsupported version: " ++ string version
  | .malformedEntries => units "replay fence store has malformed entries"
  | .malformedEntry key => units "replay fence store has malformed entry: " ++ key
  | .notPersisted reason => units "failed to persist replay fence: " ++ reason

/-- What is in a file. -/
inductive FenceFile where
  | unreadable (reason : List UInt16)
  | notJson (reason : List UInt16)
  | json (value : JsonValue)

/-- The file of the store and the temporary file beside it, where they exist. -/
structure FenceDisk where
  file : Option FenceFile
  tmp : Option FenceFile

/-- Where a write of the store throws. `left` is what a failed write leaves in the temporary file. -/
inductive PersistFault where
  | makeDirectory
  | writeFile (left : Option FenceFile)
  | syncFile
  | rename
  | syncDirectory

/-- The store in memory. -/
structure ReplayFenceStore where
  entries : OrderedMap (List UInt16) ReplayFenceEntry
  loaded : Bool

namespace ReplayFenceStore

/-- A new store. -/
def init : ReplayFenceStore := ⟨.empty, false⟩

/-- `keyOf`. -/
def keyOf (chatId messageId : List UInt16) : List UInt16 := decimal chatId.length ++ unit ':' :: (chatId ++ messageId)

/-- The key of an entry. -/
def entryKey (entry : ReplayFenceEntry) : List UInt16 := keyOf entry.chatId entry.messageId

/-! ## The file -/

/-- An entry as it is written. -/
def entryJson (entry : ReplayFenceEntry) : JsonValue :=
  .object [(units "chatId", .string entry.chatId), (units "messageId", .string entry.messageId),
    (units "provider", .string entry.provider), (units "toolName", .string entry.toolName),
    (units "toolUseId", .string entry.toolUseId), (units "fencedAt", .string entry.fencedAt)]

/-- `isValidEntry`: the entry, when every field is a string. -/
def readEntry (candidate : JsonValue) : Option ReplayFenceEntry := do
  let chatId ← (candidate.field "chatId").bind JsonValue.text?
  let messageId ← (candidate.field "messageId").bind JsonValue.text?
  let provider ← (candidate.field "provider").bind JsonValue.text?
  let toolName ← (candidate.field "toolName").bind JsonValue.text?
  let toolUseId ← (candidate.field "toolUseId").bind JsonValue.text?
  let fencedAt ← (candidate.field "fencedAt").bind JsonValue.text?
  return ⟨chatId, messageId, provider, toolName, toolUseId, fencedAt⟩

/-- The loop of `load` over the entries of the file. -/
def loadEntries (loaded : OrderedMap (List UInt16) ReplayFenceEntry) :
    List (List UInt16 × JsonValue) → Except ReplayFenceError (OrderedMap (List UInt16) ReplayFenceEntry)
  | [] => .ok loaded
  | (key, candidate) :: rest =>
    match readEntry candidate with
    | none => .error (.malformedEntry key)
    | some entry => if entryKey entry = key then loadEntries (loaded.set key entry) rest else .error (.malformedEntry key)

/-- `FENCE_VERSION`. -/
def fenceVersion : Rat := 1

/-- What `load` makes of the value in the file. -/
def loadData (data : JsonValue) : Except ReplayFenceError (OrderedMap (List UInt16) ReplayFenceEntry) :=
  if (data.field "version").bind JsonValue.number? ≠ some fenceVersion then .error (.unsupportedVersion (data.field "version"))
  else
    match data.field "entries" with
    | some (.object fields) => loadEntries .empty fields
    | _ => .error .malformedEntries

/-- `load`. Only a missing file means that there are no fences. -/
def load (s : ReplayFenceStore) (disk : FenceDisk) : Except ReplayFenceError ReplayFenceStore :=
  match disk.file with
  | none => .ok { s with loaded := true }
  | some (.unreadable reason) => .error (.unreadable reason)
  | some (.notJson reason) => .error (.corrupted reason)
  | some (.json data) =>
    match loadData data with
    | .error e => .error e
    | .ok entries => .ok ⟨entries, true⟩

/-- The value `persist` writes. A key has a colon in it, so the fields of `entries` stay in the order of the map. -/
def persistData (s : ReplayFenceStore) : JsonValue :=
  .object [(units "version", .number fenceVersion),
    (units "entries", .object (s.entries.entries.map fun e => (e.1, entryJson e.2)))]

/-- `persist`: the temporary file is written, synced and renamed. That the directory could not be synced is no failure. -/
def persist (s : ReplayFenceStore) (disk : FenceDisk) (fault : Option (PersistFault × List UInt16)) :
    Except ReplayFenceError Unit × FenceDisk :=
  let written := some (.json s.persistData)
  match fault with
  | some (.makeDirectory, reason) => (.error (.notPersisted reason), disk)
  | some (.writeFile left, reason) => (.error (.notPersisted reason), { disk with tmp := left })
  | some (.syncFile, reason) => (.error (.notPersisted reason), { disk with tmp := written })
  | some (.rename, reason) => (.error (.notPersisted reason), { disk with tmp := written })
  | some (.syncDirectory, _) => (.ok (), ⟨written, none⟩)
  | none => (.ok (), ⟨written, none⟩)

/-! ## Fences -/

/-- `isFenced`. -/
def isFenced (s : ReplayFenceStore) (chatId messageId : List UInt16) : Bool := (s.entries.get? (keyOf chatId messageId)).isSome

/-- `hasFenceForChat`. -/
def hasFenceForChat (s : ReplayFenceStore) (chatId : List UInt16) : Bool := s.entries.values.any (·.chatId = chatId)

/-- `snapshot`. -/
def snapshot (s : ReplayFenceStore) : List ReplayFenceEntry := s.entries.values

/-- `fence`. The entry is in the map while it is written and is taken back when the write throws. -/
def fence (s : ReplayFenceStore) (disk : FenceDisk) (entry : ReplayFenceEntry) (fault : Option (PersistFault × List UInt16)) :
    Except ReplayFenceError Unit × ReplayFenceStore × FenceDisk :=
  match s.entries.get? (entryKey entry) with
  | some _ => (.ok (), s, disk)
  | none =>
    let added := { s with entries := s.entries.set (entryKey entry) entry }
    match added.persist disk fault with
    | (.ok _, disk) => (.ok (), added, disk)
    | (.error e, disk) => (.error e, { added with entries := added.entries.erase (entryKey entry) }, disk)

/-- `clear`. The entry is out of the map while it is written and is put back, behind the others, when the write throws. -/
def clear (s : ReplayFenceStore) (disk : FenceDisk) (chatId messageId : List UInt16)
    (fault : Option (PersistFault × List UInt16)) : Except ReplayFenceError Unit × ReplayFenceStore × FenceDisk :=
  match s.entries.get? (keyOf chatId messageId) with
  | none => (.ok (), s, disk)
  | some existing =>
    let removed := { s with entries := s.entries.erase (keyOf chatId messageId) }
    match removed.persist disk fault with
    | (.ok _, disk) => (.ok (), removed, disk)
    | (.error e, disk) => (.error e, { removed with entries := removed.entries.set (keyOf chatId messageId) existing }, disk)

end ReplayFenceStore

end FirstTree
