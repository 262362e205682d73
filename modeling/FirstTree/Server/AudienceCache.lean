import Mathlib.Data.List.Dedup
import FirstTree.Lib.AssocList

/-!
# The cache of push audiences

One replica's cache of the members of chats. A lookup that finds no fresh entry sends a query and waits; when it has its answer, it
writes the cache without looking at what has happened since. The state also keeps what a statement about it needs: the memberships
that were committed, the last commit whose invalidation has returned, and the lookups that have been resolved.
-/

namespace FirstTree

namespace AudienceCache

/-- `TTL_MS`. -/
def ttlMs : Int := 5000

/-- `MAX_ENTRIES`. -/
def maxEntries : Nat := 1024

/-- An entry of the cache. Nothing reads the order of its audience. -/
structure Entry where
  audience : List String
  expiresAt : Int

/-- The cache: a chat's entry. -/
abbrev Cache := AList fun _ : String => Entry

/-- A lookup waits for the answer of its query, or has it. -/
inductive LookupPhase where
  | querying
  | answered (audience : List String)

/-- A lookup that found no fresh entry: its chat and time, and the last commit whose invalidation had returned when it started. -/
structure Lookup where
  chatId : String
  now : Int
  floor : Nat
  phase : LookupPhase

/-- A lookup that has returned an audience. -/
structure Resolved where
  chatId : String
  floor : Nat
  audience : List String

/-- The cache and the lookups in flight, with the rows `chat_membership` has had for each chat after each commit, the first at the
start. -/
structure AudienceState where
  cache : Cache
  lookups : Nat → Option Lookup
  history : String → List (List String)
  returned : String → Nat
  resolved : List Resolved

/-- The start: an empty cache, and a membership for each chat. -/
def AudienceState.init (memberships : String → List String) : AudienceState where
  cache := ∅
  lookups _ := none
  history chatId := [memberships chatId]
  returned _ := 0
  resolved := []

/-- The cached audience of a chat, when it has not expired. -/
def cachedAudience (cache : Cache) (chatId : String) (now : Int) : Option (List String) :=
  ((cache.lookup chatId).filter fun cached => decide (cached.expiresAt > now)).map (·.audience)

/-- `cache.set`, and the cleanup of expired entries when the cache is full. -/
def cacheSet (cache : Cache) (chatId : String) (audience : List String) (now : Int) : Cache :=
  let cache := cache.insert chatId ⟨audience, now + ttlMs⟩
  if cache.entries.length > maxEntries then AssocList.filterEntries (fun e => !decide (e.2.expiresAt ≤ now)) cache else cache

/-- What happens on a replica. A lookup is one step, or a step that starts it, one in which the database answers it, and one that
ends it. -/
inductive AudienceOp where
  | commit (chatId : String) (membership : List String)
  | invalidateChatAudience (chatId : String) (commit : Nat)
  | invalidateChatAudienceLocal (chatId : String)
  | start (lookup : Nat) (chatId : String) (now : Int)
  | answer (lookup : Nat)
  | store (lookup : Nat)
  | fail (lookup : Nat)

/-- One step. An invalidation is that of a commit that has been made. -/
def step (s : AudienceState) : AudienceOp → Option AudienceState
  | .commit chatId membership =>
    some { s with history := Function.update s.history chatId (s.history chatId ++ [membership]) }
  | .invalidateChatAudience chatId commit =>
    if commit < (s.history chatId).length then
      some { s with
        cache := s.cache.erase chatId
        returned := Function.update s.returned chatId (max (s.returned chatId) commit) }
    else none
  | .invalidateChatAudienceLocal chatId => some { s with cache := s.cache.erase chatId }
  | .start lookup chatId now =>
    match s.lookups lookup with
    | some _ => none
    | none =>
      match cachedAudience s.cache chatId now with
      | some audience => some { s with resolved := s.resolved ++ [⟨chatId, s.returned chatId, audience⟩] }
      | none => some { s with lookups := Function.update s.lookups lookup (some ⟨chatId, now, s.returned chatId, .querying⟩) }
  | .answer lookup =>
    match s.lookups lookup with
    | some ⟨chatId, now, floor, .querying⟩ =>
      -- `SELECT agent_id FROM chat_membership`, and the set of what it returns.
      (s.history chatId).getLast?.map fun rows =>
        { s with lookups := Function.update s.lookups lookup (some ⟨chatId, now, floor, .answered rows.dedup⟩) }
    | _ => none
  | .store lookup =>
    match s.lookups lookup with
    | some ⟨chatId, now, floor, .answered audience⟩ =>
      some { s with
        cache := cacheSet s.cache chatId audience now
        lookups := Function.update s.lookups lookup none
        resolved := s.resolved ++ [⟨chatId, floor, audience⟩] }
    | _ => none
  | .fail lookup =>
    -- The query failed: the caller gets `null`, and the cache is as it was.
    match s.lookups lookup with
    | some _ => some { s with lookups := Function.update s.lookups lookup none }
    | none => none

end AudienceCache

end FirstTree
