import FirstTree.Client.ReplayFence

/-!
# Replay fences are durable

Whatever calls of the replay-fence store throw, its map is the one the file holds: a call that throws changes neither, a call that
returns is on disk, and a delivery is fenced exactly when the last call for it that returned was a fence.
-/

namespace FirstTree

open ReplayFenceStore Utf16

/-- A call that changes the store. -/
inductive FenceCall where
  | fence (entry : ReplayFenceEntry)
  | clear (chatId messageId : List UInt16)
  deriving DecidableEq

/-- The call sets a fence. -/
def FenceCall.isFence : FenceCall → Bool
  | .fence _ => true
  | .clear _ _ => false

/-- The delivery a call is about. -/
def FenceCall.delivery : FenceCall → List UInt16 × List UInt16
  | .fence entry => (entry.chatId, entry.messageId)
  | .clear chatId messageId => (chatId, messageId)

/-- The store and its disk, and the calls made so far, with whether they returned. -/
structure FenceRun where
  store : ReplayFenceStore
  disk : FenceDisk
  log : List (FenceCall × Bool)

/-- What a call does. -/
def FenceCall.run (call : FenceCall) (s : ReplayFenceStore) (disk : FenceDisk) (fault : Option (PersistFault × List UInt16)) :
    Except ReplayFenceError Unit × ReplayFenceStore × FenceDisk :=
  match call with
  | .fence entry => s.fence disk entry fault
  | .clear chatId messageId => s.clear disk chatId messageId fault

/-- The next call of a run. -/
def FenceRun.call (r : FenceRun) (c : FenceCall × Option (PersistFault × List UInt16)) : FenceRun :=
  let result := c.1.run r.store r.disk c.2
  ⟨result.2.1, result.2.2, r.log ++ [(c.1, result.1.isOk)]⟩

/-- The last call for a delivery that returned. -/
def FenceRun.lastReturned (r : FenceRun) (chatId messageId : List UInt16) : Option FenceCall :=
  ((r.log.filter fun c => c.2 && decide (c.1.delivery = (chatId, messageId))).getLast?).map Prod.fst

/-- What holds after any calls of a store that was loaded. -/
structure FencesDurably (initial : ReplayFenceStore) (r : FenceRun) : Prop where
  onDisk : ∃ loaded, ReplayFenceStore.init.load r.disk = .ok loaded ∧ ∀ key, loaded.entries.get? key = r.store.entries.get? key
  fenced : ∀ chatId messageId, r.store.isFenced chatId messageId =
    ((r.lastReturned chatId messageId).map FenceCall.isFence).getD (initial.isFenced chatId messageId)
  own : ∀ chatId messageId entry, r.store.entries.get? (keyOf chatId messageId) = some entry →
    entry.chatId = chatId ∧ entry.messageId = messageId
  thrown : ∀ (call : FenceCall) fault e, (call.run r.store r.disk fault).1 = .error e →
    (∀ key, (call.run r.store r.disk fault).2.1.entries.get? key = r.store.entries.get? key) ∧
      (call.run r.store r.disk fault).2.2.file = r.disk.file
  returned : ∀ (call : FenceCall) fault, (call.run r.store r.disk fault).1 = .ok () →
    (call.run r.store r.disk fault).2.1.isFenced call.delivery.1 call.delivery.2 = call.isFence ∧
      ∃ loaded, ReplayFenceStore.init.load (call.run r.store r.disk fault).2.2 = .ok loaded ∧
        loaded.isFenced call.delivery.1 call.delivery.2 = call.isFence

namespace ReplayFenceAux

/-! ## Keys -/

/-- Different deliveries have different keys. -/
theorem keyOf_injective {c m c' m' : List UInt16} (h : keyOf c m = keyOf c' m') : c = c' ∧ m = m' :=
  lengthPrefixed_injective h

/-- Every entry is kept under its own key. -/
def OwnKeys (entries : OrderedMap (List UInt16) ReplayFenceEntry) : Prop :=
  ∀ key entry, entries.get? key = some entry → entryKey entry = key

/-- Setting an entry under its key keeps the keys. -/
theorem ownKeys_set {entries : OrderedMap (List UInt16) ReplayFenceEntry} (h : OwnKeys entries) (entry : ReplayFenceEntry) :
    OwnKeys (entries.set (entryKey entry) entry) := by
  intro key e he
  rw [OrderedMap.get?_set] at he
  split at he
  · rename_i hkey
    rw [← Option.some.inj he, hkey]
  · exact h key e he

/-! ## The file -/

/-- A written entry is read back. -/
theorem readEntry_entryJson (entry : ReplayFenceEntry) : readEntry (entryJson entry) = some entry := rfl

/-- The loop of `load` reads back the entries of a map, over what it has read before. -/
theorem loadEntries_written {l : List (List UInt16 × ReplayFenceEntry)} (hnodup : (l.map Prod.fst).Nodup)
    (hown : ∀ e ∈ l, entryKey e.2 = e.1) (loaded : OrderedMap (List UInt16) ReplayFenceEntry) :
    ∃ entries, loadEntries loaded (l.map fun e => (e.1, entryJson e.2)) = .ok entries ∧
      ∀ key, entries.get? key = (OrderedMap.find key l).or (loaded.get? key) := by
  induction l generalizing loaded with
  | nil => exact ⟨loaded, rfl, fun key => rfl⟩
  | cons e l ih =>
    obtain ⟨k, entry⟩ := e
    rw [List.map_cons, List.nodup_cons] at hnodup
    obtain ⟨entries, hload, hget⟩ := ih hnodup.2 (fun e he => hown e (List.mem_cons_of_mem _ he)) (loaded.set k entry)
    refine ⟨entries, ?_, fun key => ?_⟩
    · rw [List.map_cons, loadEntries, readEntry_entryJson]
      dsimp only
      rw [if_pos (hown (k, entry) List.mem_cons_self), hload]
    · rw [hget, OrderedMap.get?_set, OrderedMap.find]
      by_cases hk : k = key
      · have hnone : OrderedMap.find key l = none := by
          have hmem := @OrderedMap.mem_keys _ _ _ ⟨l, hnodup.2⟩ key
          cases hf : OrderedMap.find key l with
          | none => rfl
          | some b => exact absurd (hmem.mpr ⟨b, hf⟩) (hk ▸ hnodup.1)
        rw [if_pos hk, if_pos hk, hnone, Option.none_or, Option.some_or]
      · rw [if_neg hk, if_neg hk]

/-- What the store writes is read back as the map it has. -/
theorem load_persistData {s : ReplayFenceStore} (h : OwnKeys s.entries) (tmp : Option FenceFile) :
    ∃ loaded, ReplayFenceStore.init.load ⟨some (.json s.persistData), tmp⟩ = .ok loaded ∧
      ∀ key, loaded.entries.get? key = s.entries.get? key := by
  obtain ⟨entries, hload, hget⟩ := loadEntries_written s.entries.nodup
    (fun e he => h e.1 e.2 (OrderedMap.mem_entries.mp he)) OrderedMap.empty
  have hdata : loadData s.persistData = .ok entries := hload
  refine ⟨⟨entries, true⟩, ?_, fun key => ?_⟩
  · unfold load
    dsimp only
    rw [hdata]
  · rw [hget, OrderedMap.get?_empty, Option.or_none]
    rfl

/-- The loop of `load` keeps every entry under its own key. -/
theorem ownKeys_loadEntries {fields : List (List UInt16 × JsonValue)} {loaded entries : OrderedMap (List UInt16) ReplayFenceEntry}
    (hload : loadEntries loaded fields = .ok entries) (h : OwnKeys loaded) : OwnKeys entries := by
  induction fields generalizing loaded with
  | nil =>
    cases hload
    exact h
  | cons f fields ih =>
    obtain ⟨key, candidate⟩ := f
    unfold loadEntries at hload
    split at hload
    · cases hload
    · split at hload
      · rename_i entry _ hkey
        exact ih hload (hkey ▸ ownKeys_set h entry)
      · cases hload

/-- A store that was loaded keeps every entry under its own key. -/
theorem ownKeys_load {disk : FenceDisk} {s : ReplayFenceStore} (h : ReplayFenceStore.init.load disk = .ok s) : OwnKeys s.entries := by
  have hempty : OwnKeys (OrderedMap.empty : OrderedMap (List UInt16) ReplayFenceEntry) := fun _ _ he => by cases he
  unfold load at h
  split at h
  · cases h
    exact hempty
  · cases h
  · cases h
  · split at h
    · cases h
    · rename_i data _ entries hdata
      cases h
      unfold loadData at hdata
      split at hdata
      · cases hdata
      · split at hdata
        · exact ownKeys_loadEntries hdata hempty
        · cases hdata

/-! ## A call -/

/-- What a call leaves under the key of its delivery. -/
def recordOf : FenceCall → Option ReplayFenceEntry
  | .fence entry => some entry
  | .clear _ _ => none

/-- The key of the delivery of a call. -/
def callKey (call : FenceCall) : List UInt16 := keyOf call.delivery.1 call.delivery.2

/-- A write throws and leaves the file, or it puts the map into the file. -/
theorem persist_cases (s : ReplayFenceStore) (disk : FenceDisk) (fault : Option (PersistFault × List UInt16)) :
    (∃ e tmp, s.persist disk fault = (.error e, { disk with tmp })) ∨
      s.persist disk fault = (.ok (), ⟨some (.json s.persistData), none⟩) := by
  unfold persist
  split
  · exact .inl ⟨_, _, rfl⟩
  · exact .inl ⟨_, _, rfl⟩
  · exact .inl ⟨_, _, rfl⟩
  · exact .inl ⟨_, _, rfl⟩
  · exact .inr rfl
  · exact .inr rfl

/-- What a call can do: it throws and changes neither the map nor the file, it returns because there is nothing to do, or it
writes the map with its record. -/
theorem run_cases (call : FenceCall) (s : ReplayFenceStore) (disk : FenceDisk) (fault : Option (PersistFault × List UInt16)) :
    (∃ e s' tmp, call.run s disk fault = (.error e, s', { disk with tmp }) ∧ ∀ key, s'.entries.get? key = s.entries.get? key) ∨
      (call.run s disk fault = (.ok (), s, disk) ∧ (s.entries.get? (callKey call)).isSome = call.isFence) ∨
      ∃ s', call.run s disk fault = (.ok (), s', ⟨some (.json s'.persistData), none⟩) ∧
        ∀ key, s'.entries.get? key = if callKey call = key then recordOf call else s.entries.get? key := by
  cases call with
  | fence entry =>
    simp only [FenceCall.run, fence]
    cases hget : s.entries.get? (entryKey entry) with
    | some existing => exact .inr (.inl ⟨rfl, congrArg Option.isSome hget⟩)
    | none =>
      dsimp only
      rcases persist_cases { s with entries := s.entries.set (entryKey entry) entry } disk fault with ⟨e, tmp, hp⟩ | hp
      · refine .inl ⟨e, _, tmp, by rw [hp], fun key => ?_⟩
        dsimp only
        rw [OrderedMap.get?_erase, OrderedMap.get?_set]
        by_cases hk : entryKey entry = key
        · rw [if_pos hk, ← hk, hget]
        · rw [if_neg hk, if_neg hk]
      · exact .inr (.inr ⟨_, by rw [hp], fun key => OrderedMap.get?_set _ _ _ _⟩)
  | clear chatId messageId =>
    simp only [FenceCall.run, clear]
    cases hget : s.entries.get? (keyOf chatId messageId) with
    | none => exact .inr (.inl ⟨rfl, congrArg Option.isSome hget⟩)
    | some existing =>
      dsimp only
      rcases persist_cases { s with entries := s.entries.erase (keyOf chatId messageId) } disk fault with ⟨e, tmp, hp⟩ | hp
      · refine .inl ⟨e, _, tmp, by rw [hp], fun key => ?_⟩
        dsimp only
        rw [OrderedMap.get?_set, OrderedMap.get?_erase]
        by_cases hk : keyOf chatId messageId = key
        · rw [if_pos hk, ← hk, hget]
        · rw [if_neg hk, if_neg hk]
      · exact .inr (.inr ⟨_, by rw [hp], fun key => OrderedMap.get?_erase _ _ _⟩)

/-! ## A run -/

/-- What every call keeps. -/
structure RunOk (initial : ReplayFenceStore) (r : FenceRun) : Prop where
  own : OwnKeys r.store.entries
  onDisk : ∃ loaded, ReplayFenceStore.init.load r.disk = .ok loaded ∧ ∀ key, loaded.entries.get? key = r.store.entries.get? key
  fenced : ∀ chatId messageId, r.store.isFenced chatId messageId =
    ((r.lastReturned chatId messageId).map FenceCall.isFence).getD (initial.isFenced chatId messageId)

/-- The last call that returned, after one more call. -/
theorem lastReturned_concat (store : ReplayFenceStore) (disk : FenceDisk) (log : List (FenceCall × Bool))
    (call : FenceCall) (ok : Bool) (chatId messageId : List UInt16) :
    (⟨store, disk, log ++ [(call, ok)]⟩ : FenceRun).lastReturned chatId messageId =
      if ok = true ∧ call.delivery = (chatId, messageId) then some call
      else (⟨store, disk, log⟩ : FenceRun).lastReturned chatId messageId := by
  unfold FenceRun.lastReturned
  rw [List.filter_append]
  by_cases h : ok = true ∧ call.delivery = (chatId, messageId)
  · rw [if_pos h, List.filter_cons_of_pos (by simp [h]), List.filter_nil, List.getLast?_append]
    rfl
  · rw [if_neg h, List.filter_cons_of_neg (by simpa using h), List.filter_nil, List.append_nil]

/-- The key of a call is that of a delivery exactly when the call is about it. -/
theorem callKey_eq {call : FenceCall} {chatId messageId : List UInt16} :
    callKey call = keyOf chatId messageId ↔ call.delivery = (chatId, messageId) := by
  constructor
  · intro h
    obtain ⟨hc, hm⟩ := keyOf_injective h
    exact Prod.ext hc hm
  · intro h
    rw [callKey, h]

/-- A record is there exactly after a fence. -/
theorem isSome_recordOf (call : FenceCall) : (recordOf call).isSome = call.isFence := by
  cases call <;> rfl

/-- The map after a call that wrote keeps every entry under its own key. -/
theorem ownKeys_written {call : FenceCall} {s s' : ReplayFenceStore} (h : OwnKeys s.entries)
    (hs' : ∀ key, s'.entries.get? key = if callKey call = key then recordOf call else s.entries.get? key) : OwnKeys s'.entries := by
  intro key entry he
  rw [hs'] at he
  split at he
  · rename_i hkey
    cases call with
    | fence e =>
      rw [← Option.some.inj he]
      exact hkey
    | clear chatId messageId => cases he
  · exact h key entry he

/-- Every call keeps what a run keeps. -/
theorem runOk_call {initial : ReplayFenceStore} {r : FenceRun} (h : RunOk initial r)
    (c : FenceCall × Option (PersistFault × List UInt16)) : RunOk initial (r.call c) := by
  obtain ⟨store, disk, log⟩ := r
  obtain ⟨call, fault⟩ := c
  obtain ⟨hown, ⟨loaded, hload, hget⟩, hfenced⟩ := h
  have hcall : (⟨store, disk, log⟩ : FenceRun).call (call, fault) =
      ⟨(call.run store disk fault).2.1, (call.run store disk fault).2.2, log ++ [(call, (call.run store disk fault).1.isOk)]⟩ := rfl
  rw [hcall]
  rcases run_cases call store disk fault with ⟨e, s', tmp, hrun, hs'⟩ | ⟨hrun, hnothing⟩ | ⟨s', hrun, hs'⟩
  · rw [hrun]
    refine ⟨fun key entry he => hown key entry (hs' key ▸ he), ⟨loaded, hload, fun key => (hget key).trans (hs' key).symm⟩, ?_⟩
    intro chatId messageId
    have hfalse : (Except.error e : Except ReplayFenceError Unit).isOk = false := rfl
    rw [lastReturned_concat, hfalse, if_neg (by simp)]
    refine Eq.trans ?_ (hfenced chatId messageId)
    exact congrArg Option.isSome (hs' _)
  · rw [hrun]
    refine ⟨hown, ⟨loaded, hload, hget⟩, fun chatId messageId => ?_⟩
    have htrue : (Except.ok () : Except ReplayFenceError Unit).isOk = true := rfl
    rw [lastReturned_concat, htrue]
    by_cases hd : call.delivery = (chatId, messageId)
    · have hkey := callKey_eq.mpr hd
      have hisFenced : store.isFenced chatId messageId = call.isFence := by rw [isFenced, ← hkey, hnothing]
      rw [if_pos ⟨rfl, hd⟩, hisFenced]
      rfl
    · rw [if_neg fun hc => hd hc.2]
      exact hfenced chatId messageId
  · rw [hrun]
    have hown' := ownKeys_written hown hs'
    obtain ⟨loaded', hload', hget'⟩ := load_persistData hown' none
    refine ⟨hown', ⟨loaded', hload', hget'⟩, fun chatId messageId => ?_⟩
    have htrue : (Except.ok () : Except ReplayFenceError Unit).isOk = true := rfl
    have hisFenced : s'.isFenced chatId messageId = (s'.entries.get? (keyOf chatId messageId)).isSome := rfl
    rw [lastReturned_concat, htrue, hisFenced, hs']
    by_cases hd : call.delivery = (chatId, messageId)
    · rw [if_pos (callKey_eq.mpr hd), if_pos ⟨rfl, hd⟩, isSome_recordOf]
      rfl
    · rw [if_neg fun hk => hd (callKey_eq.mp hk), if_neg fun hc => hd hc.2]
      exact hfenced chatId messageId

/-- Every run keeps it. -/
theorem runOk_foldl {initial : ReplayFenceStore} {r : FenceRun} (h : RunOk initial r)
    (calls : List (FenceCall × Option (PersistFault × List UInt16))) : RunOk initial (calls.foldl FenceRun.call r) := by
  induction calls generalizing r with
  | nil => exact h
  | cons c calls ih => exact ih (runOk_call h c)

end ReplayFenceAux

open ReplayFenceAux

/-- After any calls of a store that was loaded, with any of their writes failing, the map in memory is the one the file holds and a
delivery is fenced exactly when the last call for it that returned was a fence. -/
theorem replay_fences_durable {disk : FenceDisk} {store : ReplayFenceStore} (h : ReplayFenceStore.init.load disk = .ok store)
    (calls : List (FenceCall × Option (PersistFault × List UInt16))) :
    FencesDurably store (calls.foldl FenceRun.call ⟨store, disk, []⟩) := by
  have hstart : RunOk store ⟨store, disk, []⟩ := ⟨ownKeys_load h, ⟨store, h, fun _ => rfl⟩, fun _ _ => rfl⟩
  have hrun := runOk_foldl hstart calls
  generalize calls.foldl FenceRun.call ⟨store, disk, []⟩ = r at hrun
  refine ⟨hrun.onDisk, hrun.fenced, ?_, ?_, ?_⟩
  · intro chatId messageId entry he
    exact keyOf_injective (hrun.own _ _ he)
  · intro call fault e he
    rcases run_cases call r.store r.disk fault with ⟨e', s', tmp, heq, hs'⟩ | ⟨heq, _⟩ | ⟨s', heq, _⟩
    · rw [heq]
      exact ⟨hs', rfl⟩
    · rw [heq] at he
      cases he
    · rw [heq] at he
      cases he
  · intro call fault hok
    rcases run_cases call r.store r.disk fault with ⟨e', s', tmp, heq, _⟩ | ⟨heq, hnothing⟩ | ⟨s', heq, hs'⟩
    · rw [heq] at hok
      cases hok
    · obtain ⟨loaded, hload, hget⟩ := hrun.onDisk
      rw [heq]
      exact ⟨hnothing, loaded, hload, (congrArg Option.isSome (hget _)).trans hnothing⟩
    · obtain ⟨loaded, hload, hget⟩ := load_persistData (ownKeys_written hrun.own hs') none
      have hfenced : (s'.entries.get? (callKey call)).isSome = call.isFence := by
        rw [hs', if_pos rfl, isSome_recordOf]
      rw [heq]
      exact ⟨hfenced, loaded, hload, (congrArg Option.isSome (hget _)).trans hfenced⟩

/-- A fence on the first start, whose write fails and then succeeds. -/
theorem replay_fences_durable_retried :
    let call := FenceCall.fence ⟨units "c", units "m", units "p", units "Bash", units "t", units "now"⟩
    FencesDurably ⟨.empty, true⟩
      ([(call, some (.rename, units "EIO")), (call, none)].foldl FenceRun.call ⟨⟨.empty, true⟩, ⟨none, none⟩, []⟩) :=
  replay_fences_durable rfl _

end FirstTree
