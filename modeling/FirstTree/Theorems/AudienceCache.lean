import FirstTree.Lib.Runs
import FirstTree.Server.AudienceCache

/-!
# The push audience after an invalidation

A lookup that starts after an invalidation has returned sees the membership of its commit or of a later one as long as every
lookup that stores what it read stores such a membership. A lookup that read before the commit and stores after the invalidation
does not: the entry it writes is what the next lookup returns.
-/

namespace FirstTree

open Runs AudienceCache

namespace AudienceCache

/-- An audience has the members a chat had after a commit that is not earlier than another. -/
def CommittedSince (history : List (List String)) (commit : Nat) (audience : List String) : Prop :=
  ∃ i members, commit ≤ i ∧ history[i]? = some members ∧ ∀ agentId, agentId ∈ audience ↔ agentId ∈ members

/-- Every lookup that returned an audience returned one that was committed no earlier than the last commit whose invalidation had
returned when it started. -/
def ResolvesCommitted (s : AudienceState) : Prop :=
  ∀ r ∈ s.resolved, CommittedSince (s.history r.chatId) r.floor r.audience

/-- In every run from the start the lookups return such audiences. -/
def AlwaysResolvesCommitted (memberships : String → List String)
    (steps : AudienceState → AudienceOp → AudienceState → Prop) : Prop :=
  ∀ ops s, Run steps (.init memberships) ops s → ResolvesCommitted s

/-- A lookup stores only an audience the chat has had since the last commit whose invalidation has returned by then. -/
def StoresCommitted (s : AudienceState) : AudienceOp → Prop
  | .store lookup => ∀ chatId now floor audience, s.lookups lookup = some ⟨chatId, now, floor, .answered audience⟩ →
      CommittedSince (s.history chatId) (s.returned chatId) audience
  | _ => True

end AudienceCache

namespace AudienceCacheAux

/-! ## Commits -/

/-- Later commits take nothing away. -/
theorem committedSince_concat {history : List (List String)} {commit : Nat} {audience : List String}
    (h : CommittedSince history commit audience) (membership : List String) :
    CommittedSince (history ++ [membership]) commit audience := by
  obtain ⟨i, members, hi, hget, hmem⟩ := h
  have hlt : i < history.length := (List.getElem?_eq_some_iff.mp hget).1
  exact ⟨i, members, hi, by rw [List.getElem?_append_left hlt, hget], hmem⟩

/-- The answer of the database is the last membership that was committed. -/
theorem committedSince_dedup {history : List (List String)} {commit : Nat} {rows : List String} (hlt : commit < history.length)
    (hlast : history.getLast? = some rows) : CommittedSince history commit rows.dedup := by
  rw [List.getLast?_eq_getElem?] at hlast
  exact ⟨history.length - 1, rows, by omega, hlast, fun agentId => List.mem_dedup⟩

/-! ## The cache -/

/-- What the cache returns was stored. -/
theorem of_cachedAudience {cache : Cache} {chatId : String} {now : Int} {audience : List String}
    (h : cachedAudience cache chatId now = some audience) : ∃ entry, cache.lookup chatId = some entry ∧
      entry.audience = audience := by
  obtain ⟨entry, hentry, rfl⟩ := Option.map_eq_some_iff.mp h
  exact ⟨entry, (Option.filter_eq_some_iff.mp hentry).1, rfl⟩

/-- After a store, an entry is the one that was stored, or an old one of another chat. -/
theorem of_lookup_cacheSet {cache : Cache} {chatId chatId' : String} {audience : List String} {now : Int} {entry : Entry}
    (h : (cacheSet cache chatId audience now).lookup chatId' = some entry) :
    (chatId' = chatId ∧ entry.audience = audience) ∨ cache.lookup chatId' = some entry := by
  have hinsert : (cache.insert chatId ⟨audience, now + ttlMs⟩).lookup chatId' = some entry := by
    unfold cacheSet at h
    dsimp only at h
    split at h
    · rw [AssocList.lookup_filterEntries] at h
      exact (Option.filter_eq_some_iff.mp h).1
    · exact h
  rw [AssocList.lookup_insert_ite] at hinsert
  split at hinsert
  · rename_i hid
    exact .inl ⟨hid, congrArg Entry.audience (Option.some.inj hinsert).symm⟩
  · exact .inr hinsert

/-- What was stored is returned until it expires: the cleanup leaves it in the cache. -/
theorem cachedAudience_cacheSet (cache : Cache) (chatId : String) (audience : List String) (now : Int) :
    cachedAudience (cacheSet cache chatId audience now) chatId now = some audience := by
  have hfresh : now + ttlMs > now := by
    unfold ttlMs
    omega
  have hlookup : (cacheSet cache chatId audience now).lookup chatId = some ⟨audience, now + ttlMs⟩ := by
    unfold cacheSet
    dsimp only
    split
    · rw [AssocList.lookup_filterEntries, AList.lookup_insert, Option.filter_eq_some_iff]
      exact ⟨rfl, by simpa using hfresh⟩
    · exact AList.lookup_insert cache
  rw [cachedAudience, hlookup, Option.filter_some, decide_eq_true hfresh]
  rfl

/-! ## What every step keeps -/

/-- What the cache, the lookups in flight and the resolved ones hold was committed since the commits that count for them. -/
structure Fresh (s : AudienceState) : Prop where
  returned : ∀ chatId, s.returned chatId < (s.history chatId).length
  cached : ∀ chatId entry, s.cache.lookup chatId = some entry → CommittedSince (s.history chatId) (s.returned chatId) entry.audience
  floor : ∀ id lookup, s.lookups id = some lookup → lookup.floor < (s.history lookup.chatId).length
  answered : ∀ id chatId now floor audience, s.lookups id = some ⟨chatId, now, floor, .answered audience⟩ →
    CommittedSince (s.history chatId) floor audience
  resolved : ResolvesCommitted s

/-- The start is fresh. -/
theorem fresh_init (memberships : String → List String) : Fresh (.init memberships) where
  returned _ := Nat.zero_lt_one
  cached chatId entry h := by simp [AudienceState.init] at h
  floor id lookup h := absurd h (by simp [AudienceState.init])
  answered id chatId now floor audience h := absurd h (by simp [AudienceState.init])
  resolved r h := absurd h (by simp [AudienceState.init])

/-- A commit keeps what was committed, and the lengths grow. -/
theorem fresh_commit {s : AudienceState} (h : Fresh s) (chatId : String) (membership : List String) :
    Fresh { s with history := Function.update s.history chatId (s.history chatId ++ [membership]) } := by
  have hlen : ∀ c, (s.history c).length ≤ (Function.update s.history chatId (s.history chatId ++ [membership]) c).length := by
    intro c
    rw [Function.update_apply]
    split
    · rename_i hc
      rw [hc, List.length_append]
      omega
    · exact Nat.le_refl _
  have hsince : ∀ {c commit audience}, CommittedSince (s.history c) commit audience →
      CommittedSince (Function.update s.history chatId (s.history chatId ++ [membership]) c) commit audience := by
    intro c commit audience hc
    rw [Function.update_apply]
    split
    · rename_i heq
      rw [heq] at hc
      exact committedSince_concat hc membership
    · exact hc
  exact {
    returned := fun c => Nat.lt_of_lt_of_le (h.returned c) (hlen c)
    cached := fun c entry hentry => hsince (h.cached c entry hentry)
    floor := fun id lookup hlookup => Nat.lt_of_lt_of_le (h.floor id lookup hlookup) (hlen _)
    answered := fun id c now floor audience hlookup => hsince (h.answered id c now floor audience hlookup)
    resolved := fun r hr => hsince (h.resolved r hr) }

/-- Without its entry, nothing is cached for a chat. -/
theorem Fresh.cached_erase {s : AudienceState} (h : Fresh s) {chatId c : String} {entry : Entry}
    (hentry : (s.cache.erase chatId).lookup c = some entry) :
    c ≠ chatId ∧ CommittedSince (s.history c) (s.returned c) entry.audience := by
  by_cases hc : c = chatId
  · rw [hc, AList.lookup_erase] at hentry
    cases hentry
  · rw [AList.lookup_erase_ne hc] at hentry
    exact ⟨hc, h.cached c entry hentry⟩

/-- An invalidation leaves no entry of its chat that its commit would make stale. -/
theorem fresh_invalidate {s : AudienceState} (h : Fresh s) {chatId : String} {commit : Nat}
    (hlt : commit < (s.history chatId).length) :
    Fresh { s with
      cache := s.cache.erase chatId, returned := Function.update s.returned chatId (max (s.returned chatId) commit) } where
  returned c := by
    dsimp only
    rw [Function.update_apply]
    split
    · rename_i hc
      rw [hc]
      exact max_lt (h.returned chatId) hlt
    · exact h.returned c
  cached c entry hentry := by
    obtain ⟨hc, hsince⟩ := h.cached_erase hentry
    dsimp only
    rw [Function.update_of_ne hc]
    exact hsince
  floor := h.floor
  answered := h.answered
  resolved := h.resolved

/-- An invalidation from another replica leaves fewer entries. -/
theorem fresh_invalidateLocal {s : AudienceState} (h : Fresh s) (chatId : String) :
    Fresh { s with cache := s.cache.erase chatId } where
  returned := h.returned
  cached _ _ hentry := (h.cached_erase hentry).2
  floor := h.floor
  answered := h.answered
  resolved := h.resolved

/-- A lookup that returns an audience committed since its floor keeps the rest fresh. -/
theorem resolvesCommitted_append {s : AudienceState} (h : Fresh s) {chatId : String} {floor : Nat} {audience : List String}
    (hsince : CommittedSince (s.history chatId) floor audience) :
    ∀ r ∈ s.resolved ++ [⟨chatId, floor, audience⟩], CommittedSince (s.history r.chatId) r.floor r.audience := by
  intro r hr
  rcases List.mem_append.mp hr with hr | hr
  · exact h.resolved r hr
  · rw [List.mem_singleton.mp hr]
    exact hsince

/-- A lookup that has the fields it should keeps the lookups fresh. -/
theorem fresh_update {s : AudienceState} (h : Fresh s) (id : Nat) {new : Option Lookup}
    (hfloor : ∀ lookup, new = some lookup → lookup.floor < (s.history lookup.chatId).length)
    (hanswered : ∀ chatId now floor audience, new = some ⟨chatId, now, floor, .answered audience⟩ →
      CommittedSince (s.history chatId) floor audience) :
    Fresh { s with lookups := Function.update s.lookups id new } where
  returned := h.returned
  cached := h.cached
  floor id' lookup hlookup := by
    dsimp only at hlookup
    rw [Function.update_apply] at hlookup
    split at hlookup
    · exact hfloor lookup hlookup
    · exact h.floor id' lookup hlookup
  answered id' chatId now floor audience hlookup := by
    dsimp only at hlookup
    rw [Function.update_apply] at hlookup
    split at hlookup
    · exact hanswered chatId now floor audience hlookup
    · exact h.answered id' chatId now floor audience hlookup
  resolved := h.resolved

/-- A lookup that ends keeps the lookups fresh. -/
theorem fresh_finish {s : AudienceState} (h : Fresh s) (id : Nat) : Fresh { s with lookups := Function.update s.lookups id none } :=
  fresh_update h id (fun _ hlookup => absurd hlookup (by simp)) fun _ _ _ _ hlookup => absurd hlookup (by simp)

/-- A store of an audience committed since the last invalidation keeps the cache fresh. -/
theorem fresh_store {s : AudienceState} (h : Fresh s) {id : Nat} {chatId : String} {now : Int} {floor : Nat} {audience : List String}
    (hlookup : s.lookups id = some ⟨chatId, now, floor, .answered audience⟩)
    (hstore : CommittedSince (s.history chatId) (s.returned chatId) audience) :
    Fresh { s with
      cache := cacheSet s.cache chatId audience now
      lookups := Function.update s.lookups id none
      resolved := s.resolved ++ [⟨chatId, floor, audience⟩] } where
  returned := h.returned
  cached c entry hentry := by
    rcases of_lookup_cacheSet hentry with ⟨rfl, haudience⟩ | hold
    · rw [haudience]
      exact hstore
    · exact h.cached c entry hold
  floor := (fresh_finish h id).floor
  answered := (fresh_finish h id).answered
  resolved := resolvesCommitted_append h (h.answered id chatId now floor audience hlookup)

/-- A lookup starts fresh: with what is cached, or with the floor of the chat. -/
theorem fresh_start {s t : AudienceState} (h : Fresh s) {id : Nat} {chatId : String} {now : Int}
    (hstep : step s (.start id chatId now) = some t) : Fresh t := by
  simp only [step] at hstep
  split at hstep
  · cases hstep
  · split at hstep
    · rename_i audience haudience
      obtain ⟨entry, hentry, rfl⟩ := of_cachedAudience haudience
      cases hstep
      exact ⟨h.returned, h.cached, h.floor, h.answered, resolvesCommitted_append h (h.cached chatId entry hentry)⟩
    · cases hstep
      refine fresh_update h id (fun lookup hlookup => ?_) fun c now' floor audience hlookup => ?_
      · cases hlookup
        exact h.returned chatId
      · cases hlookup

/-- The database answers with a membership committed since the lookup started. -/
theorem fresh_answer {s t : AudienceState} (h : Fresh s) {id : Nat} (hstep : step s (.answer id) = some t) : Fresh t := by
  simp only [step] at hstep
  split at hstep
  · rename_i chatId now floor hlookup
    obtain ⟨rows, hrows, rfl⟩ := Option.map_eq_some_iff.mp hstep
    have hlt := h.floor id _ hlookup
    refine fresh_update h id (fun lookup hnew => ?_) fun c now' floor' audience hnew => ?_
    · cases hnew
      exact hlt
    · cases hnew
      exact committedSince_dedup hlt hrows
  · cases hstep

/-- Every step whose stores are of committed memberships keeps the state fresh. -/
theorem fresh_step : Preserves (Guarded StoresCommitted (ofPartial step)) Fresh := by
  intro s op t h hop
  obtain ⟨hguard, hstep⟩ := hop
  cases op with
  | commit chatId membership =>
    cases hstep
    exact fresh_commit h chatId membership
  | invalidateChatAudience chatId commit =>
    simp only [ofPartial, step] at hstep
    split at hstep
    · rename_i hlt
      cases hstep
      exact fresh_invalidate h hlt
    · cases hstep
  | invalidateChatAudienceLocal chatId =>
    cases hstep
    exact fresh_invalidateLocal h chatId
  | start id chatId now => exact fresh_start h hstep
  | answer id => exact fresh_answer h hstep
  | store id =>
    simp only [ofPartial, step] at hstep
    split at hstep
    · rename_i chatId now floor audience hlookup
      cases hstep
      exact fresh_store h hlookup (hguard chatId now floor audience hlookup)
    · cases hstep
  | fail id =>
    simp only [ofPartial, step] at hstep
    split at hstep
    · cases hstep
      exact fresh_finish h id
    · cases hstep

/-! ## A store of an older membership -/

/-- What a lookup stores, the next one returns, whatever has been committed and invalidated. -/
theorem next_lookup_stored {s : AudienceState} {id : Nat} {chatId : String} {now : Int} {floor : Nat} {audience : List String}
    (hlookup : s.lookups id = some ⟨chatId, now, floor, .answered audience⟩) :
    ∃ t, Run (ofPartial step) s [.store id, .start id chatId now] t ∧ t.history = s.history ∧
      ⟨chatId, s.returned chatId, audience⟩ ∈ t.resolved := by
  refine ⟨_, Run.of_foldlM (t := { s with
    cache := cacheSet s.cache chatId audience now
    lookups := Function.update s.lookups id none
    resolved := s.resolved ++ [⟨chatId, floor, audience⟩] ++ [⟨chatId, s.returned chatId, audience⟩] }) ?_, rfl, ?_⟩
  · simp [step, hlookup, cachedAudience_cacheSet]
  · simp

end AudienceCacheAux

open AudienceCacheAux

/-- As long as lookups store only audiences committed since the last commit whose invalidation has returned, every lookup returns one
committed since the last such commit before it started. When a lookup stores an older one, the next lookup of the chat returns it. -/
theorem audience_cache_fresh_iff (memberships : String → List String) :
    AlwaysResolvesCommitted memberships (Guarded StoresCommitted (ofPartial step)) ∧
      ∀ s op, ¬ StoresCommitted s op → ∃ ops t, Run (ofPartial step) s (op :: ops) t ∧ ¬ ResolvesCommitted t := by
  refine ⟨fun ops s hrun => (hrun.invariant fresh_step (fresh_init memberships)).resolved, fun s op hop => ?_⟩
  cases op with
  | store id =>
    simp only [StoresCommitted, not_forall] at hop
    obtain ⟨chatId, now, floor, audience, hlookup, hstale⟩ := hop
    obtain ⟨t, hrun, hhistory, hmem⟩ := next_lookup_stored hlookup
    refine ⟨_, t, hrun, fun hresolves => hstale ?_⟩
    rw [← hhistory]
    exact hresolves _ hmem
  | _ => exact absurd trivial hop

/-- A lookup that read before a member joined and stored after the invalidation: the next one misses the member. -/
theorem stale_store_outlives_invalidation : ¬ AlwaysResolvesCommitted (fun _ => ["h"]) (ofPartial step) := by
  intro halways
  have hrun : ∃ t, [AudienceOp.start 0 "c" 0, .answer 0, .commit "c" ["h", "w"], .invalidateChatAudience "c" 1, .store 0,
      .start 1 "c" 1].foldlM step (.init fun _ => ["h"]) = some t ∧ t.history "c" = [["h"], ["h", "w"]] ∧
      t.resolved = [⟨"c", 0, ["h"]⟩, ⟨"c", 1, ["h"]⟩] := ⟨_, rfl, rfl, rfl⟩
  obtain ⟨t, hrun, hhistory, hresolved⟩ := hrun
  obtain ⟨i, members, hi, hget, hmembers⟩ := halways _ t (Run.of_foldlM hrun) ⟨"c", 1, ["h"]⟩ (by simp [hresolved])
  rw [hhistory] at hget
  match i, hi with
  | 1, _ =>
    cases hget
    exact absurd ((hmembers "w").mpr (by decide)) (by decide)
  | n + 2, _ => simp at hget

end FirstTree
