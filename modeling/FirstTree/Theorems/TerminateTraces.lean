import FirstTree.Lib.Runs
import FirstTree.Lemmas.Sessions

/-!
# The traces of a terminated session

A terminate evicts its row and deletes the events of the chat under the row's lock. An append takes the same lock, and is dropped when
it finds the row evicted, so no event exists from the commit of a terminate until an upsert writes another state over the row: any
other state, not only `active`.
-/

namespace FirstTree

open Runs Transactions

variable {Chat Tx : Type} [DecidableEq Chat] [DecidableEq Tx]

namespace Sessions

/-- The events of a session, in append order. -/
def eventsOf (store : SessionStore Chat) (c : Chat) : List (SessionEventRow Chat) :=
  store.events.filter fun e => decide (e.chatId = c)

/-- A store to start from: the row of the session exists, its events are in order, and nothing has been recorded. -/
structure TraceStart (c : Chat) (store : SessionStore Chat) : Prop where
  row : (store.sessions.lookup c).isSome = true
  ordered : ((eventsOf store c).map (·.seq)).Pairwise (· < ·)
  issued : ∀ e ∈ store.events, e.id ∈ store.issuedIds
  history : store.history = []

/-- After a terminate no event exists until an upsert revives the row, the events appended after it are not among those it
deleted, and the events that exist have increasing sequence numbers. -/
structure TracesCleared (revives : SessionState → Bool) (c : Chat) (store : SessionStore Chat) : Prop where
  cleared : ∀ before ids after, store.history = before ++ .finalized c ids :: after →
    (∀ state, .upserted c state ∈ after → revives state = false) → eventsOf store c = []
  kept : ∀ before ids after, store.history = before ++ .finalized c ids :: after → ∀ e, .appended e ∈ after → e.id ∉ ids
  ordered : ((eventsOf store c).map (·.seq)).Pairwise (· < ·)

/-- In every run the traces of a terminated session are cleared. -/
def AlwaysClears (revives : SessionState → Bool) (steps : SessionSystem Chat Tx → SessionOp Chat Tx → SessionSystem Chat Tx →
    Prop) : Prop :=
  ∀ c store, TraceStart c store → ∀ ops s, Run steps (.idle store) ops s → TracesCleared revives c s.store

end Sessions

open Sessions SessionsAux

namespace TerminateTracesAux

/-! ## Terminated sessions -/

/-- Whether a session is terminated after a commit, when it was or was not before. -/
def terminatedAfter (c : Chat) (terminated : Bool) : SessionCommit Chat → Bool
  | .upserted c' state => terminated && !decide (c' = c ∧ state ≠ .evicted)
  | .finalized c' _ => terminated || decide (c' = c)
  | .appended _ => terminated

/-- Whether a session is terminated: no upsert has revived it since the last terminate. -/
def isTerminated (c : Chat) (history : List (SessionCommit Chat)) : Bool :=
  history.foldl (terminatedAfter c) false

/-- Commits that do not revive a terminated session leave it terminated. -/
theorem foldl_terminatedAfter {c : Chat} {after : List (SessionCommit Chat)}
    (h : ∀ state, .upserted c state ∈ after → state = .evicted) : after.foldl (terminatedAfter c) true = true := by
  induction after with
  | nil => rfl
  | cons a after ih =>
    have ha : terminatedAfter c true a = true := by
      cases a with
      | upserted c' state =>
        simp only [terminatedAfter, Bool.true_and, Bool.not_eq_true', decide_eq_false_iff_not, not_and, not_not]
        rintro rfl
        exact h state List.mem_cons_self
      | finalized c' ids => rfl
      | appended e => rfl
    rw [List.foldl_cons, ha]
    exact ih fun state hmem => h state (List.mem_cons_of_mem a hmem)

/-- A session is terminated after a terminate that no upsert has undone. -/
theorem isTerminated_of_finalized {c : Chat} {before after : List (SessionCommit Chat)} {ids : List Nat}
    (h : ∀ state, .upserted c state ∈ after → state = .evicted) : isTerminated c (before ++ .finalized c ids :: after) = true := by
  have hlast : terminatedAfter c (before.foldl (terminatedAfter c) false) (.finalized c ids) = true := by
    simp [terminatedAfter]
  rw [isTerminated, List.foldl_append, List.foldl_cons, hlast]
  exact foldl_terminatedAfter h

/-- The state of a committed session row. -/
def stateOf (store : SessionStore Chat) (c : Chat) : Option SessionState :=
  (store.sessions.lookup c).map SessionRow.state

/-- The state of a session row with a transaction's own write over it. -/
def visibleState (store : SessionStore Chat) (t : SessionTx Chat) (c : Chat) : Option SessionState :=
  ((t.rows.lookup c).or (store.sessions.lookup c)).map SessionRow.state

/-! ## The parts of the invariant -/

/-- What holds of the committed rows, events and records. -/
structure StoreOk (c : Chat) (store : SessionStore Chat) : Prop where
  row : ∃ row, store.sessions.lookup c = some row
  ordered : store.events.Pairwise fun e e' => e.chatId = c → e'.chatId = c → e.seq < e'.seq
  terminated : isTerminated c store.history = true → stateOf store c = some .evicted ∧ ∀ e ∈ store.events, e.chatId ≠ c
  issued : ∀ e ∈ store.events, e.id ∈ store.issuedIds
  deleted : ∀ ids, .finalized c ids ∈ store.history → ∀ i ∈ ids, i ∈ store.issuedIds
  kept : ∀ before ids after, store.history = before ++ .finalized c ids :: after → ∀ e, .appended e ∈ after → e.id ∉ ids

/-- A transaction may append an event of this number: it holds the row, which is not evicted, and every event of the session is
below. -/
structure Appends (c : Chat) (store : SessionStore Chat) (t : SessionTx Chat) (seq : Nat) : Prop where
  locked : c ∈ t.lockedRows
  live : stateOf store c ≠ some .evicted
  above : ∀ e ∈ store.events, e.chatId = c → e.seq < seq

/-- What the next statement of a transaction rests on. -/
def NextOk (c : Chat) (store : SessionStore Chat) (t : SessionTx Chat) : SessionStatement Chat → Prop
  | .lockForTransition _ target sources => target = .evicted ∨ sources.contains .evicted = false
  | .writeTransition chatId target canTransition =>
    chatId = c → canTransition = true → target = .evicted ∨ stateOf store c ≠ some .evicted
  | .repairEvicted chatId => chatId = c → stateOf store c = some .evicted
  | .clearEvents chatId _ => t.outcome = none ∧ (chatId = c → visibleState store t c = some .evicted)
  | .nextSeq chatId => chatId = c → c ∈ t.lockedRows ∧ stateOf store c ≠ some .evicted
  | .insertEvent chatId seq => chatId = c → Appends c store t seq
  | .evictScanned _ => t.outcome = none
  | .clearAllEvents => t.outcome = none
  | _ => True

/-- A statement before the first write of its transaction, or the first write itself. -/
def beforeWrites : SessionStatement Chat → Bool
  | .clearEvents _ _ => false
  | .countSessions _ => false
  | .writePresence _ _ => false
  | .evictScanned _ => false
  | .clearAllEvents => false
  | .zeroPresence => false
  | .done => false
  | _ => true

/-- A terminate that has cleared the events: it holds the row, leaves it evicted, and deletes every event of the session. -/
structure Clears (c : Chat) (store : SessionStore Chat) (t : SessionTx Chat) (ids : List Nat) : Prop where
  ids_eq : t.deletedIds = ids
  locked : c ∈ t.lockedRows
  evicted : visibleState store t c = some .evicted
  covered : ∀ e ∈ store.events, e.chatId = c → e.id ∈ ids
  appends : t.newEvents = []

/-- What holds of an open transaction. -/
structure TxOk (c : Chat) (store : SessionStore Chat) (t : SessionTx Chat) : Prop where
  locks : LocksHeld t
  next : NextOk c store t t.next
  unwritten : beforeWrites t.next = true → t.rows = ∅ ∧ t.outcome = none
  appended : t.newEvents ≠ [] → t.next = .done
  single : ∀ e ∈ t.newEvents, t.newEvents = [e] ∧ t.outcome = some (.appended e)
  appends : ∀ e ∈ t.newEvents, e.chatId = c → Appends c store t e.seq
  recorded : ∀ e, t.outcome = some (.appended e) → e ∈ t.newEvents
  clears : ∀ ids, t.outcome = some (.finalized c ids) → Clears c store t ids
  wrote : ∀ row, t.rows.lookup c = some row →
    row.state = .evicted ∨ t.outcome = some (.upserted c row.state) ∨ stateOf store c ≠ some .evicted
  fresh : ∀ e ∈ t.newEvents, e.id ∈ store.issuedIds ∧ (∀ e' ∈ store.events, e'.id ≠ e.id) ∧
    ∀ ids, .finalized c ids ∈ store.history → e.id ∉ ids
  deleted : ∀ i ∈ t.deletedIds, i ∈ store.issuedIds

/-- What one transaction appends another has not deleted or appended. -/
def NewIds (t t' : SessionTx Chat) : Prop :=
  ∀ e ∈ t.newEvents, e.id ∉ t'.deletedIds ∧ ∀ e' ∈ t'.newEvents, e'.id ≠ e.id

/-- Two transactions lock no row together, and the ids they append are new to each other. -/
def PairOk (t t' : SessionTx Chat) : Prop :=
  Apart t t' ∧ NewIds t t' ∧ NewIds t' t

/-- The invariant of a session. -/
abbrev Sound (c : Chat) (s : SessionSystem Chat Tx) : Prop :=
  Invariant (StoreOk c) (TxOk c) PairOk s

omit [DecidableEq Chat] in
theorem pairOk_symm {t t' : SessionTx Chat} (h : PairOk t t') : PairOk t' t :=
  ⟨apart_symm h.1, h.2.2, h.2.1⟩

/-! ## Changes of the store -/

omit [DecidableEq Tx] in
/-- A commit leaves the row in the state its transaction saw. -/
theorem stateOf_commitStore (store : SessionStore Chat) (t : SessionTx Chat) (c : Chat) :
    stateOf (commitStore store t) c = visibleState store t c := by
  rw [stateOf, lookup_commitStore, visibleState]

/-- A transaction reads the same state of a row when the committed row has kept its state. -/
theorem visibleState_congr {store store' : SessionStore Chat} {t : SessionTx Chat} {c : Chat}
    (h : stateOf store' c = stateOf store c) : visibleState store' t c = visibleState store t c := by
  unfold visibleState
  cases t.rows.lookup c with
  | none => exact h
  | some row => rfl

/-- A change of the store that keeps the state and the events of the session for a transaction that holds its row, and brings no
id that the transaction appends, keeps what holds of the transaction. -/
theorem TxOk.of_frame {c : Chat} {store store' : SessionStore Chat} {t : SessionTx Chat} (h : TxOk c store t)
    (hstate : c ∈ t.lockedRows → stateOf store' c = stateOf store c)
    (hevents : c ∈ t.lockedRows → ∀ e ∈ store'.events, e.chatId = c → e ∈ store.events)
    (hissued : ∀ i ∈ store.issuedIds, i ∈ store'.issuedIds)
    (hids : ∀ e ∈ t.newEvents, (∀ e' ∈ store'.events, e'.id ≠ e.id) ∧ ∀ ids, .finalized c ids ∈ store'.history → e.id ∉ ids) :
    TxOk c store' t := by
  have happends : ∀ seq, Appends c store t seq → Appends c store' t seq := by
    rintro seq ⟨hlocked, hlive, habove⟩
    exact ⟨hlocked, by rwa [hstate hlocked], fun e he hc => habove e (hevents hlocked e he hc) hc⟩
  refine ⟨h.locks, ?_, h.unwritten, h.appended, h.single, fun e he hc => happends _ (h.appends e he hc), h.recorded, fun ids ho => ?_,
    fun row hrow => ?_, fun e he => ⟨hissued _ (h.fresh e he).1, hids e he⟩, fun i hi => hissued i (h.deleted i hi)⟩
  · have hnext := h.next
    have htarget := h.locks.target
    cases hn : t.next with
    | writeTransition chatId target canTransition =>
      rw [hn] at hnext htarget
      rintro rfl hcan
      rw [hstate (htarget chatId rfl)]
      exact hnext rfl hcan
    | repairEvicted chatId =>
      rw [hn] at hnext htarget
      rintro rfl
      rw [hstate (htarget chatId rfl)]
      exact hnext rfl
    | clearEvents chatId transitioned =>
      rw [hn] at hnext htarget
      refine ⟨hnext.1, ?_⟩
      rintro rfl
      rw [visibleState_congr (hstate (htarget chatId rfl))]
      exact hnext.2 rfl
    | nextSeq chatId =>
      rw [hn] at hnext
      rintro rfl
      obtain ⟨hlocked, hlive⟩ := hnext rfl
      exact ⟨hlocked, by rwa [hstate hlocked]⟩
    | insertEvent chatId seq =>
      rw [hn] at hnext
      exact fun hc => happends seq (hnext hc)
    | _ =>
      rw [hn] at hnext
      exact hnext
  · obtain ⟨hids, hlocked, hevicted, hcovered, hnew⟩ := h.clears ids ho
    exact ⟨hids, hlocked, by rwa [visibleState_congr (hstate hlocked)], fun e he hc => hcovered e (hevents hlocked e he hc) hc, hnew⟩
  · rw [hstate (h.locks.rows c row hrow)]
    exact h.wrote row hrow

/-! ## Commits -/

/-- A session terminated after a commit was terminated before and is not revived, or the commit terminates it. -/
theorem isTerminated_append {c : Chat} {history : List (SessionCommit Chat)} {outcome : Option (SessionCommit Chat)}
    (h : isTerminated c (history ++ outcome.toList) = true) :
    (∃ ids, outcome = some (.finalized c ids)) ∨
      (isTerminated c history = true ∧ ∀ state, outcome = some (.upserted c state) → state = .evicted) := by
  cases outcome with
  | none => exact Or.inr ⟨by simpa using h, nofun⟩
  | some a =>
    simp only [isTerminated, Option.toList_some, List.foldl_append, List.foldl_cons, List.foldl_nil] at h
    cases a with
    | upserted c' state =>
      simp only [terminatedAfter, Bool.and_eq_true, Bool.not_eq_true', decide_eq_false_iff_not, not_and, not_not] at h
      refine Or.inr ⟨h.1, fun state' heq => ?_⟩
      simp only [Option.some.injEq, SessionCommit.upserted.injEq] at heq
      exact heq.2 ▸ h.2 heq.1
    | finalized c' ids =>
      simp only [terminatedAfter, Bool.or_eq_true, decide_eq_true_eq] at h
      rcases h with h | rfl
      · exact Or.inr ⟨h, nofun⟩
      · exact Or.inl ⟨ids, rfl⟩
    | appended e => exact Or.inr ⟨h, nofun⟩

/-- A commit that revives no terminated session leaves it evicted. -/
theorem visibleState_evicted {c : Chat} {store : SessionStore Chat} {t : SessionTx Chat} (h : TxOk c store t)
    (hevicted : stateOf store c = some .evicted) (hrevives : ∀ state, t.outcome = some (.upserted c state) → state = .evicted) :
    visibleState store t c = some .evicted := by
  unfold visibleState
  cases hrow : t.rows.lookup c with
  | none => exact hevicted
  | some row =>
    have hstate : row.state = .evicted := by
      rcases h.wrote row hrow with hw | hw | hw
      · exact hw
      · exact hrevives _ hw
      · exact absurd hevicted hw
    simp [hstate]

omit [DecidableEq Chat] in
/-- The records after a commit: those before it, and the transaction's own last. -/
theorem after_commit {history before after : List (SessionCommit Chat)} {outcome : Option (SessionCommit Chat)}
    {a : SessionCommit Chat} (h : history ++ outcome.toList = before ++ a :: after) :
    after = [] ∨ ∃ after', history = before ++ a :: after' ∧ after = after' ++ outcome.toList := by
  cases outcome with
  | none => exact Or.inr ⟨after, by simpa using h, by simp⟩
  | some last =>
    rcases List.eq_nil_or_concat after with rfl | ⟨after', last', rfl⟩
    · exact Or.inl rfl
    · rw [List.concat_eq_append] at h
      have hinit : history ++ [last] = (before ++ a :: after') ++ [last'] := by simpa using h
      obtain ⟨hhistory, hlast⟩ := List.append_inj' hinit rfl
      exact Or.inr ⟨after', hhistory, by simpa using (List.cons.inj hlast).1.symm⟩

/-- A commit keeps what holds of the store. -/
theorem storeOk_commit {c : Chat} {store : SessionStore Chat} {t : SessionTx Chat} (hs : StoreOk c store) (h : TxOk c store t) :
    StoreOk c (commitStore store t) where
  row := by
    obtain ⟨row, hrow⟩ := hs.row
    rw [lookup_commitStore, hrow]
    cases t.rows.lookup c with
    | none => exact ⟨row, rfl⟩
    | some row' => exact ⟨row', rfl⟩
  ordered := by
    refine List.pairwise_append.mpr ⟨hs.ordered.sublist List.filter_sublist, ?_, fun e he e' he' hc hc' => ?_⟩
    · cases hnew : t.newEvents with
      | nil => exact List.Pairwise.nil
      | cons e rest =>
        have hsingle := (h.single e (hnew ▸ List.mem_cons_self)).1
        rw [hnew] at hsingle
        rw [hsingle]
        exact List.pairwise_singleton _ e
    · exact (h.appends e' he' hc').above e (List.mem_of_mem_filter he) hc
  terminated hterm := by
    rw [stateOf_commitStore]
    rcases isTerminated_append hterm with ⟨ids, ho⟩ | ⟨hbefore, hrevives⟩
    · obtain ⟨hids, _, hevicted, hcovered, hnew⟩ := h.clears ids ho
      refine ⟨hevicted, fun e he hc => ?_⟩
      simp only [commitStore, hnew, List.append_nil, List.mem_filter, decide_eq_true_eq, hids] at he
      exact he.2 (hcovered e he.1 hc)
    · obtain ⟨hevicted, hnone⟩ := hs.terminated hbefore
      refine ⟨visibleState_evicted h hevicted hrevives, fun e he hc => ?_⟩
      rcases List.mem_append.mp he with he | he
      · exact hnone e (List.mem_of_mem_filter he) hc
      · exact (h.appends e he hc).live hevicted
  issued e he := by
    rcases List.mem_append.mp he with he | he
    · exact hs.issued e (List.mem_of_mem_filter he)
    · exact (h.fresh e he).1
  deleted ids hids i hi := by
    rcases List.mem_append.mp hids with hids | hids
    · exact hs.deleted ids hids i hi
    · have hcleared := h.clears ids (Option.mem_toList.mp hids)
      exact h.deleted i (hcleared.ids_eq ▸ hi)
  kept before ids after hhistory e he := by
    rcases after_commit hhistory with rfl | ⟨after', hbefore, rfl⟩
    · exact absurd he List.not_mem_nil
    · rcases List.mem_append.mp he with he | he
      · exact hs.kept before ids after' hbefore e he
      · have hnew := h.recorded e (Option.mem_toList.mp he)
        exact (h.fresh e hnew).2.2 ids (by rw [hbefore]; simp)

/-- A commit keeps what holds of another transaction. -/
theorem txOk_commit {c : Chat} {store : SessionStore Chat} {t o : SessionTx Chat} (h : TxOk c store t) (ho : TxOk c store o)
    (hpair : PairOk t o) : TxOk c (commitStore store t) o := by
  refine ho.of_frame (fun hlocked => ?_) (fun hlocked e he hc => ?_) (fun i hi => hi) fun e he =>
    ⟨fun e' he' => ?_, fun ids hids => ?_⟩
  · have hrow : t.rows.lookup c = none := by
      cases hrow : t.rows.lookup c with
      | none => rfl
      | some row => exact absurd hlocked (hpair.1 c (h.locks.rows c row hrow))
    rw [stateOf, lookup_commitStore, hrow, Option.none_or, stateOf]
  · rcases List.mem_append.mp he with he | he
    · exact List.mem_of_mem_filter he
    · exact absurd hlocked (hpair.1 c (h.appends e he hc).locked)
  · rcases List.mem_append.mp he' with he' | he'
    · exact (ho.fresh e he).2.1 e' (List.mem_of_mem_filter he')
    · exact (hpair.2.2 e he).2 e' he'
  · rcases List.mem_append.mp hids with hids | hids
    · exact (ho.fresh e he).2.2 ids hids
    · have hcleared := h.clears ids (Option.mem_toList.mp hids)
      exact hcleared.ids_eq ▸ (hpair.2.2 e he).1

/-! ## One statement -/

/-- A transaction that has appended nothing. -/
theorem TxOk.of_nil {c : Chat} {store : SessionStore Chat} {t : SessionTx Chat} (hlocks : LocksHeld t)
    (hnext : NextOk c store t t.next)
    (hunwritten : beforeWrites t.next = true → t.rows = ∅ ∧ t.outcome = none) (hnew : t.newEvents = [])
    (hrecorded : ∀ e, t.outcome ≠ some (.appended e)) (hclears : ∀ ids, t.outcome = some (.finalized c ids) → Clears c store t ids)
    (hwrote : ∀ row, t.rows.lookup c = some row →
      row.state = .evicted ∨ t.outcome = some (.upserted c row.state) ∨ stateOf store c ≠ some .evicted)
    (hdeleted : ∀ i ∈ t.deletedIds, i ∈ store.issuedIds) : TxOk c store t where
  locks := hlocks
  next := hnext
  unwritten := hunwritten
  appended hne := absurd hnew hne
  single _ he := absurd (hnew ▸ he) List.not_mem_nil
  appends _ he := absurd (hnew ▸ he) List.not_mem_nil
  recorded e ho := absurd ho (hrecorded e)
  clears := hclears
  wrote := hwrote
  fresh _ he := absurd (hnew ▸ he) List.not_mem_nil
  deleted := hdeleted

/-- Nothing is appended before the last statement. -/
theorem TxOk.newEvents_eq {c : Chat} {store : SessionStore Chat} {t : SessionTx Chat} (h : TxOk c store t) (hdone : t.next ≠ .done) :
    t.newEvents = [] := by
  by_contra hne
  exact hdone (h.appended hne)

/-- A statement that writes no row, deletes nothing and records nothing. -/
theorem TxOk.move {c : Chat} {store : SessionStore Chat} {t t' : SessionTx Chat} (h : TxOk c store t) (hdone : t.next ≠ .done)
    (hlocks : LocksHeld t') (hrows : t'.rows = t.rows) (hnew : t'.newEvents = t.newEvents) (hdeleted : t'.deletedIds = t.deletedIds)
    (hout : t'.outcome = t.outcome) (hkeep : ∀ c ∈ t.lockedRows, c ∈ t'.lockedRows) (hnext : NextOk c store t' t'.next)
    (hbefore : beforeWrites t'.next = true → beforeWrites t.next = true) : TxOk c store t' := by
  have hnil := h.newEvents_eq hdone
  refine TxOk.of_nil hlocks hnext (fun hb => ?_) (hnew.trans hnil) (fun e ho => ?_) (fun ids ho => ?_) (fun row hrow => ?_)
    fun i hi => ?_
  · rw [hrows, hout]
    exact h.unwritten (hbefore hb)
  · have := h.recorded e (hout ▸ ho)
    rw [hnil] at this
    exact List.not_mem_nil this
  · obtain ⟨hids, hlocked, hevicted, hcovered, _⟩ := h.clears ids (hout ▸ ho)
    refine ⟨hdeleted.trans hids, hkeep c hlocked, ?_, hcovered, hnew.trans hnil⟩
    rw [visibleState, hrows]
    exact hevicted
  · rw [hout]
    exact h.wrote row (hrows ▸ hrow)
  · exact h.deleted i (hdeleted ▸ hi)

/-- A statement that writes a row, and records an upsert or nothing. -/
theorem TxOk.write {c : Chat} {store : SessionStore Chat} {t t' : SessionTx Chat} (h : TxOk c store t) (hdone : t.next ≠ .done)
    (hnone : t.outcome = none) {chatId : Chat} {row : SessionRow} (hlocks : LocksHeld t') (hrows : t'.rows = t.rows.insert chatId row)
    (hnew : t'.newEvents = t.newEvents) (hdeleted : t'.deletedIds = t.deletedIds)
    (hout : t'.outcome = none ∨ ∃ state, t'.outcome = some (.upserted chatId state)) (hnext : NextOk c store t' t'.next)
    (hbefore : beforeWrites t'.next = false)
    (hstate : chatId = c → row.state = .evicted ∨ t'.outcome = some (.upserted c row.state) ∨ stateOf store c ≠ some .evicted) :
    TxOk c store t' := by
  have hrecord : ∀ a, t'.outcome = some a → ∃ state, a = .upserted chatId state := by
    intro a ha
    rcases hout with hout | ⟨state, hout⟩
    · rw [hout] at ha
      cases ha
    · rw [hout] at ha
      exact ⟨state, (Option.some.inj ha).symm⟩
  refine TxOk.of_nil hlocks hnext (fun hb => ?_) (hnew.trans (h.newEvents_eq hdone)) (fun e ho => ?_) (fun ids ho => ?_)
    (fun row' hrow => ?_) fun i hi => ?_
  · rw [hbefore] at hb
    cases hb
  · obtain ⟨state, heq⟩ := hrecord _ ho
    cases heq
  · obtain ⟨state, heq⟩ := hrecord _ ho
    cases heq
  · rw [hrows, AssocList.lookup_insert_ite] at hrow
    split at hrow
    · next heq => exact Option.some.inj hrow ▸ hstate heq.symm
    · rcases h.wrote row' hrow with hw | hw | hw
      · exact Or.inl hw
      · rw [hnone] at hw
        cases hw
      · exact Or.inr (Or.inr hw)
  · exact h.deleted i (hdeleted ▸ hi)

/-- A row a transaction has just written is the one it sees. -/
theorem visibleState_insert {store : SessionStore Chat} {t t' : SessionTx Chat} {c : Chat} {row : SessionRow}
    (h : t'.rows = t.rows.insert c row) : visibleState store t' c = some row.state := by
  rw [visibleState, h, AssocList.lookup_insert_ite, if_pos rfl]
  rfl

/-- The next sequence number is above those of the session. -/
theorem lt_nextSeqOf {store : SessionStore Chat} {c : Chat} {e : SessionEventRow Chat} (he : e ∈ store.events) (hc : e.chatId = c) :
    e.seq < nextSeqOf store c := by
  have hmem : e.seq ∈ (store.events.filter fun e => decide (e.chatId = c)).map (·.seq) :=
    List.mem_map_of_mem (List.mem_filter.mpr ⟨he, by simpa using hc⟩)
  unfold nextSeqOf
  cases hmax : ((store.events.filter fun e => decide (e.chatId = c)).map (·.seq)).max? with
  | none =>
    rw [List.max?_eq_none_iff.mp hmax] at hmem
    exact absurd hmem List.not_mem_nil
  | some m =>
    have := (List.max?_eq_some_iff.mp hmax).2 e.seq hmem
    simp only [Option.getD_some]
    omega

/-- A statement keeps what holds of its transaction. -/
theorem txOk_run {c : Chat} {s : SessionSystem Chat Tx} {tx : Tx} {t t' : SessionTx Chat} {eventId : Nat} (hs : StoreOk c s.store)
    (h : TxOk c s.store t) (hid : eventId ∉ s.store.issuedIds) (hstep : runStatement s tx t eventId = some t') :
    TxOk c { s.store with issuedIds := eventId :: s.store.issuedIds } t' := by
  have hlocks := (locks_run h.locks hstep).1
  have widen : TxOk c s.store t' → TxOk c { s.store with issuedIds := eventId :: s.store.issuedIds } t' := fun h' =>
    h'.of_frame (fun _ => rfl) (fun _ e he _ => he) (fun i hi => List.mem_cons_of_mem _ hi) fun e he => (h'.fresh e he).2
  have hnext := h.next
  have hunwritten := h.unwritten
  unfold runStatement at hstep
  cases hn : t.next with
  | lockAgentShare chatId state =>
    simp only [hn] at hstep
    split at hstep
    · obtain rfl := Option.some.inj hstep
      exact widen (h.move (by simp [hn]) hlocks rfl rfl rfl rfl (fun _ hc => hc) trivial (fun _ => by rw [hn]; rfl))
    · cases hstep
  | upsertRow chatId state =>
    have hnone := (hunwritten (by rw [hn]; rfl)).2
    simp only [hn] at hstep
    split at hstep
    · unfold Sessions.upsertRow at hstep
      split at hstep
      · obtain rfl := Option.some.inj hstep
        exact widen (h.write (by simp [hn]) hnone hlocks rfl rfl rfl (Or.inr ⟨state, rfl⟩) trivial rfl
          (fun hc => Or.inr (Or.inl (by rw [hc]))))
      · split at hstep
        · obtain rfl := Option.some.inj hstep
          exact widen (h.write (by simp [hn]) hnone hlocks rfl rfl rfl (Or.inr ⟨state, rfl⟩) trivial rfl
            (fun hc => Or.inr (Or.inl (by rw [hc]))))
        · obtain rfl := Option.some.inj hstep
          exact widen
            (h.move (by simp [hn]) hlocks rfl rfl rfl rfl (fun _ => List.mem_cons_of_mem chatId) trivial (by simp [beforeWrites]))
    · cases hstep
  | lockForTransition chatId target sources =>
    rw [hn] at hnext
    simp only [hn] at hstep
    split at hstep
    · obtain rfl := Option.some.inj hstep
      exact widen (h.move (by simp [hn]) hlocks rfl rfl rfl rfl (fun _ hc => hc) trivial (by simp [beforeWrites]))
    · next row hrow =>
      split at hstep
      · obtain rfl := Option.some.inj hstep
        have hready : NextOk c s.store (decideTransition t chatId target sources row)
            (decideTransition t chatId target sources row).next := by
          rcases next_decideTransition t chatId target sources row with hdone | hwrite
          · rw [hdone]
            trivial
          · rw [hwrite]
            rintro rfl hcan
            refine hnext.imp_right fun hsources hevicted => ?_
            have hrowState : row.state = .evicted := by simpa [stateOf, hrow] using hevicted
            rw [hrowState, hsources] at hcan
            cases hcan
        exact widen (h.move (by simp [hn]) hlocks rfl rfl rfl rfl (fun _ => List.mem_cons_of_mem chatId) hready
          (fun _ => by rw [hn]; rfl))
      · cases hstep
  | writeTransition chatId target canTransition =>
    have hnone := (hunwritten (by rw [hn]; rfl)).2
    rw [hn] at hnext
    simp only [hn, Option.map_eq_some_iff] at hstep
    obtain ⟨row, hrow, rfl⟩ := hstep
    refine widen (h.write (by simp [hn]) hnone hlocks rfl rfl rfl (Or.inl hnone) ?_ ?_ fun hc => ?_)
    · cases canTransition <;> trivial
    · cases canTransition <;> rfl
    · cases canTransition with
      | true => exact (hnext hc rfl).imp_right Or.inr
      | false =>
        by_cases hevicted : row.state = .evicted
        · exact Or.inl hevicted
        · refine Or.inr (Or.inr ?_)
          rw [← hc, stateOf, hrow]
          simpa using hevicted
  | lockForFinalize chatId =>
    have hnone := (hunwritten (by rw [hn]; rfl)).2
    simp only [hn] at hstep
    split at hstep
    · obtain rfl := Option.some.inj hstep
      exact widen (h.move (by simp [hn]) hlocks rfl rfl rfl rfl (fun _ hc => hc) trivial (by simp [beforeWrites]))
    · next row hrow =>
      split at hstep
      · obtain rfl := Option.some.inj hstep
        have hmove : ∀ next, NextOk c s.store (lockRow t chatId next) next → LocksHeld (lockRow t chatId next) →
            TxOk c s.store (lockRow t chatId next) := fun next hready hl =>
          h.move (by simp [hn]) hl rfl rfl rfl rfl (fun _ => List.mem_cons_of_mem chatId) hready (fun _ => by rw [hn]; rfl)
        have hlookup : chatId = c → stateOf s.store c = some row.state := by
          rintro rfl
          rw [stateOf, hrow]
          rfl
        have hrows : t.rows.lookup c = none := by
          rw [(hunwritten (by rw [hn]; rfl)).1]
          exact AList.lookup_empty c
        refine widen ?_
        unfold decideFinalize at hlocks ⊢
        split at hlocks
        · next hevicted =>
          refine hmove _ ?_ hlocks
          split
          · exact fun hc => (hlookup hc).trans (by rw [hevicted])
          · refine ⟨hnone, fun hc => ?_⟩
            rw [visibleState, lockRow, hrows, Option.none_or]
            exact (hlookup hc).trans (by rw [hevicted])
        · exact hmove _ trivial hlocks
        · exact hmove _ trivial hlocks
        · exact hmove _ trivial hlocks
      · cases hstep
  | repairEvicted chatId =>
    have hnone := (hunwritten (by rw [hn]; rfl)).2
    rw [hn] at hnext
    simp only [hn, Option.map_eq_some_iff] at hstep
    obtain ⟨row, hrow, rfl⟩ := hstep
    have hevicted : chatId = c → row.state = .evicted := by
      rintro rfl
      simpa [stateOf, hrow] using hnext rfl
    refine widen (h.write (by simp [hn]) hnone hlocks rfl rfl rfl (Or.inl hnone) ⟨hnone, fun hc => ?_⟩ rfl
      (fun hc => Or.inl (hevicted hc)))
    rw [← hc, visibleState_insert rfl, ← hevicted hc]
  | evictRow chatId =>
    have hnone := (hunwritten (by rw [hn]; rfl)).2
    simp only [hn] at hstep
    obtain rfl := Option.some.inj hstep
    refine widen (h.write (by simp [hn]) hnone hlocks rfl rfl rfl (Or.inl hnone) ⟨hnone, fun hc => ?_⟩ rfl (fun _ => Or.inl rfl))
    rw [← hc, visibleState_insert rfl]
  | clearEvents chatId transitioned =>
    have hnil := h.newEvents_eq (by simp [hn])
    have htarget := h.locks.target
    rw [hn] at hnext htarget
    simp only [hn] at hstep
    obtain rfl := Option.some.inj hstep
    refine widen (TxOk.of_nil hlocks ?_ (fun hb => ?_) hnil (by simp) (fun ids ho => ?_) (fun row hrow => ?_) fun i hi => ?_)
    · cases transitioned <;> trivial
    · cases transitioned <;> cases hb
    · simp only [Option.some.injEq, SessionCommit.finalized.injEq] at ho
      obtain ⟨rfl, rfl⟩ := ho
      refine ⟨rfl, htarget chatId rfl, hnext.2 rfl, fun e he hc => ?_, hnil⟩
      exact List.mem_map_of_mem (List.mem_filter.mpr ⟨he, by simpa using hc⟩)
    · rcases h.wrote row hrow with hw | hw | hw
      · exact Or.inl hw
      · rw [hnext.1] at hw
        cases hw
      · exact Or.inr (Or.inr hw)
    · obtain ⟨e, he, rfl⟩ := List.mem_map.mp hi
      exact hs.issued e (List.mem_of_mem_filter he)
  | countSessions insertPresence =>
    simp only [hn] at hstep
    obtain rfl := Option.some.inj hstep
    exact widen (h.move (by simp [hn]) hlocks rfl rfl rfl rfl (fun _ hc => hc) trivial (by simp [beforeWrites]))
  | writePresence insertPresence counts =>
    simp only [hn] at hstep
    obtain ⟨hrows, hlocked, hnew, hdeleted, hout, hdone⟩ := writePresence_frame hstep
    exact widen (h.move (by simp [hn]) hlocks hrows hnew hdeleted hout (fun _ hc => hlocked ▸ hc) (by rw [hdone]; trivial)
      (by simp [hdone, beforeWrites]))
  | lockAgentUpdate =>
    simp only [hn] at hstep
    split at hstep
    · obtain rfl := Option.some.inj hstep
      exact widen (h.move (by simp [hn]) hlocks rfl rfl rfl rfl (fun _ hc => hc) trivial (fun _ => by rw [hn]; rfl))
    · cases hstep
  | scanSessions =>
    have hnone := (hunwritten (by rw [hn]; rfl)).2
    simp only [hn] at hstep
    obtain rfl := Option.some.inj hstep
    exact widen (h.move (by simp [hn]) hlocks rfl rfl rfl rfl (fun _ hc => hc) hnone (by simp [beforeWrites]))
  | evictScanned chatIds =>
    have hnone : t.outcome = none := by rwa [hn] at hnext
    cases chatIds with
    | nil =>
      simp only [hn] at hstep
      obtain rfl := Option.some.inj hstep
      exact widen (h.move (by simp [hn]) hlocks rfl rfl rfl rfl (fun _ hc => hc) hnone (by simp [beforeWrites]))
    | cons chatId chatIds =>
      simp only [hn] at hstep
      split at hstep
      · split at hstep
        · split at hstep
          · obtain rfl := Option.some.inj hstep
            exact widen (h.write (by simp [hn]) hnone hlocks rfl rfl rfl (Or.inl hnone) hnone rfl (fun _ => Or.inl rfl))
          · obtain rfl := Option.some.inj hstep
            exact widen (h.move (by simp [hn]) hlocks rfl rfl rfl rfl (fun _ hc => hc) hnone (by simp [beforeWrites]))
        · obtain rfl := Option.some.inj hstep
          exact widen (h.move (by simp [hn]) hlocks rfl rfl rfl rfl (fun _ hc => hc) hnone (by simp [beforeWrites]))
      · cases hstep
  | clearAllEvents =>
    have hnone : t.outcome = none := by rwa [hn] at hnext
    have hnil := h.newEvents_eq (by simp [hn])
    simp only [hn] at hstep
    obtain rfl := Option.some.inj hstep
    refine widen (TxOk.of_nil hlocks trivial (by simp [beforeWrites]) hnil (fun e ho => ?_) (fun ids ho => ?_) h.wrote fun i hi => ?_)
    · exact absurd (hnone.symm.trans ho) (by simp)
    · exact absurd (hnone.symm.trans ho) (by simp)
    · obtain ⟨e, he, rfl⟩ := List.mem_map.mp hi
      exact hs.issued e (List.mem_of_mem_filter he)
  | zeroPresence =>
    simp only [hn, Option.map_eq_some_iff] at hstep
    obtain ⟨u, hu, rfl⟩ := hstep
    obtain ⟨hrows, hlocked, hnew, hdeleted, hout, hdone⟩ := writePresence_frame hu
    exact widen (h.move (by simp [hn]) hlocks hrows hnew hdeleted hout (fun _ hc => hlocked ▸ hc)
      (by simp only [hdone]; trivial) (by simp [hdone, beforeWrites]))
  | lockForAppend chatId =>
    simp only [hn] at hstep
    split at hstep
    · next hmissing =>
      obtain rfl := Option.some.inj hstep
      refine widen (h.move (by simp [hn]) hlocks rfl rfl rfl rfl (fun _ hc => hc) ?_ (fun _ => by rw [hn]; rfl))
      rintro rfl
      obtain ⟨row, hrow⟩ := hs.row
      rw [hmissing] at hrow
      cases hrow
    · next row hrow =>
      split at hstep
      · obtain rfl := Option.some.inj hstep
        refine widen
          (h.move (by simp [hn]) hlocks rfl rfl rfl rfl (fun _ => List.mem_cons_of_mem chatId) ?_ (fun _ => by rw [hn]; rfl))
        by_cases hevicted : row.state = .evicted
        · simp only [lockRow, if_pos hevicted]
          trivial
        · simp only [lockRow, if_neg hevicted]
          rintro rfl
          refine ⟨List.mem_cons_self, ?_⟩
          rw [stateOf, hrow]
          simpa using hevicted
      · cases hstep
  | nextSeq chatId =>
    rw [hn] at hnext
    simp only [hn] at hstep
    obtain rfl := Option.some.inj hstep
    refine widen (h.move (by simp [hn]) hlocks rfl rfl rfl rfl (fun _ hc => hc) ?_ (fun _ => by rw [hn]; rfl))
    rintro rfl
    obtain ⟨hlocked, hlive⟩ := hnext rfl
    exact ⟨hlocked, hlive, fun e he hc => lt_nextSeqOf he hc⟩
  | insertEvent chatId seq =>
    rw [hn] at hnext
    have hempty := hunwritten (by rw [hn]; rfl)
    simp only [hn] at hstep
    split at hstep
    · cases hstep
    · split at hstep
      · obtain rfl := Option.some.inj hstep
        exact widen (h.move (by simp [hn]) hlocks rfl rfl rfl rfl (fun _ hc => hc) trivial (by simp [beforeWrites]))
      · obtain rfl := Option.some.inj hstep
        have hrows : ∀ row, t.rows.lookup c ≠ some row := by
          intro row hrow
          rw [hempty.1] at hrow
          exact absurd hrow (by simp)
        refine ⟨hlocks, trivial, by simp [beforeWrites], fun _ => rfl, fun e he => ?_, fun e he hc => ?_, fun e ho => ?_, by simp,
          fun row hrow => absurd hrow (hrows row), fun e he => ?_, fun i hi => List.mem_cons_of_mem _ (h.deleted i hi)⟩
        · obtain rfl := List.mem_singleton.mp he
          exact ⟨rfl, rfl⟩
        · obtain rfl := List.mem_singleton.mp he
          obtain ⟨hlocked, hlive, habove⟩ := hnext hc
          exact ⟨hlocked, hlive, habove⟩
        · simp only [Option.some.injEq, SessionCommit.appended.injEq] at ho
          exact ho ▸ List.mem_singleton_self _
        · obtain rfl := List.mem_singleton.mp he
          exact ⟨List.mem_cons_self, fun e' he' (heq : e'.id = eventId) => hid (heq ▸ hs.issued e' he'),
            fun ids hids hmem => hid (hs.deleted ids hids _ hmem)⟩
  | done =>
    simp only [hn] at hstep
    cases hstep

/-! ## One step -/

/-- A statement appends nothing new, or one event of the id it was given. -/
theorem newEvents_run {s : SessionSystem Chat Tx} {tx : Tx} {t t' : SessionTx Chat} {eventId : Nat}
    (hstep : runStatement s tx t eventId = some t') : t'.newEvents = t.newEvents ∨ ∀ e ∈ t'.newEvents, e.id = eventId := by
  unfold runStatement at hstep
  split at hstep <;>
    grind [Sessions.upsertRow, lockRow, writeRow, decideTransition, decideFinalize, Sessions.writePresence, Option.map_eq_some_iff]

/-- A statement deletes nothing new, or committed events. -/
theorem deletedIds_run {s : SessionSystem Chat Tx} {tx : Tx} {t t' : SessionTx Chat} {eventId : Nat}
    (hstep : runStatement s tx t eventId = some t') :
    t'.deletedIds = t.deletedIds ∨ ∀ i ∈ t'.deletedIds, ∃ e ∈ s.store.events, e.id = i := by
  have hids : ∀ (p : SessionEventRow Chat → Bool), ∀ i ∈ eventIds s.store p, ∃ e ∈ s.store.events, e.id = i := by
    intro p i hi
    obtain ⟨e, he, heq⟩ := List.mem_map.mp hi
    exact ⟨e, List.mem_of_mem_filter he, heq⟩
  unfold runStatement at hstep
  split at hstep <;>
    grind [Sessions.upsertRow, lockRow, writeRow, decideTransition, decideFinalize, Sessions.writePresence, Option.map_eq_some_iff]

/-- After a statement its transaction is apart from the others. -/
theorem pairOk_run {c : Chat} {s : SessionSystem Chat Tx} {tx : Tx} {t t' o : SessionTx Chat} {eventId : Nat} (ht : TxOk c s.store t)
    (ho : TxOk c s.store o) (hid : eventId ∉ s.store.issuedIds) (hrun : runStatement s tx t eventId = some t')
    (hmem : o ∈ s.others tx) (hpair : PairOk t o) : PairOk t' o := by
  refine ⟨fun c hc => ?_, fun e he => ?_, fun e he => ⟨?_, ?_⟩⟩
  · rcases (locks_run ht.locks hrun).2 c hc with hc | hfree
    · exact hpair.1 c hc
    · exact not_locked_of_rowFree hfree o hmem
  · rcases newEvents_run hrun with hsame | hnew
    · exact hpair.2.1 e (hsame ▸ he)
    · rw [hnew e he]
      exact ⟨fun hdel => hid (ho.deleted _ hdel), fun e' he' heq => hid (heq ▸ (ho.fresh e' he').1)⟩
  · rcases deletedIds_run hrun with hsame | hcommitted
    · rw [hsame]
      exact (hpair.2.2 e he).1
    · intro hdel
      obtain ⟨e', he', heq⟩ := hcommitted _ hdel
      exact (ho.fresh e he).2.1 e' he' heq
  · rcases newEvents_run hrun with hsame | hnew
    · rw [hsame]
      exact (hpair.2.2 e he).2
    · intro e' he' heq
      exact hid ((hnew e' he').symm ▸ heq ▸ (ho.fresh e he).1)

/-- A call begins with nothing read or written. -/
theorem sound_begin {c : Chat} {s : SessionSystem Chat Tx} (h : Sound c s) (tx : Tx) (call : SessionCall Chat) :
    Sound c (s.put s.store tx (some (newTx call))) := by
  refine h.put (fun _ _ => pairOk_symm) h.store (fun t ht => ?_) (fun _ _ ho => ho) fun t ht o ho => ?_
  · obtain rfl := Option.some.inj ht
    have hfirst : targetRow (firstStatement call) = none ∧ NextOk c s.store (newTx call) (firstStatement call) := by
      cases call with
      | archiveAllSessionsForAgent claim => cases claim <;> exact ⟨rfl, trivial⟩
      | suspendSession chatId => exact ⟨rfl, Or.inr rfl⟩
      | archiveSession chatId => exact ⟨rfl, Or.inl rfl⟩
      | _ => exact ⟨rfl, trivial⟩
    have hempty : ∀ c row, (newTx call).rows.lookup c ≠ some row := fun c row hrow => absurd hrow (by simp [newTx])
    exact TxOk.of_nil ⟨fun c row hrow => absurd hrow (hempty c row), fun c hc => absurd (hfirst.1.symm.trans hc) nofun⟩ hfirst.2
      (fun _ => ⟨rfl, rfl⟩) rfl nofun nofun (fun row hrow => absurd hrow (hempty c row)) fun i hi => absurd hi List.not_mem_nil
  · obtain rfl := Option.some.inj ht
    refine ⟨fun c hc => absurd hc List.not_mem_nil, fun e he => absurd he List.not_mem_nil, fun e _ => ⟨List.not_mem_nil, ?_⟩⟩
    exact fun e' he' => absurd he' List.not_mem_nil

/-- A statement keeps the invariant. -/
theorem sound_run {c : Chat} {s : SessionSystem Chat Tx} (h : Sound c s) {tx : Tx} {t t' : SessionTx Chat} {eventId : Nat}
    (hfind : s.find tx = some t) (hid : eventId ∉ s.store.issuedIds) (hrun : runStatement s tx t eventId = some t') :
    Sound c (s.put { s.store with issuedIds := eventId :: s.store.issuedIds } tx (some t')) := by
  have ht := h.own tx t hfind
  have hs := h.store
  have hstore : StoreOk c { s.store with issuedIds := eventId :: s.store.issuedIds } :=
    ⟨hs.row, hs.ordered, hs.terminated, fun e he => List.mem_cons_of_mem _ (hs.issued e he),
      fun ids hids i hi => List.mem_cons_of_mem _ (hs.deleted ids hids i hi), hs.kept⟩
  refine h.put (fun _ _ => pairOk_symm) hstore (fun u hu => ?_) (fun o _ ho => ?_) fun u hu o ho => ?_
  · exact Option.some.inj hu ▸ txOk_run hs ht hid hrun
  · exact ho.of_frame (fun _ => rfl) (fun _ e he _ => he) (fun i hi => List.mem_cons_of_mem _ hi) fun e he => (ho.fresh e he).2
  · obtain rfl := Option.some.inj hu
    obtain ⟨k, hne, hother⟩ := System.mem_others.mp ho
    exact pairOk_run ht (h.own k o hother) hid hrun ho (h.apart tx k t o (Ne.symm hne) hfind hother)

/-- A commit keeps the invariant. -/
theorem sound_commit {c : Chat} {s : SessionSystem Chat Tx} (h : Sound c s) {tx : Tx} {t : SessionTx Chat}
    (hfind : s.find tx = some t) : Sound c (s.put (commitStore s.store t) tx none) := by
  have ht := h.own tx t hfind
  refine h.put (fun _ _ => pairOk_symm) (storeOk_commit h.store ht) (by simp) (fun o ho hok => ?_) (by simp)
  obtain ⟨k, hne, hother⟩ := System.mem_others.mp ho
  exact txOk_commit ht hok (h.apart tx k t o (Ne.symm hne) hfind hother)

/-- A runtime report keeps the invariant. -/
theorem sound_report {c : Chat} {s : SessionSystem Chat Tx} (h : Sound c s) {chatId : Chat}
    {runtimeState : RuntimeState} {free : Bool}
    {store : SessionStore Chat} (hreport : reportRuntime s.store chatId runtimeState free = some store) :
    Sound c { s with store := store } := by
  rcases reportRuntime_cases hreport with rfl | ⟨row, hrow, _, rfl⟩
  · exact h
  · have hstates := states_insert hrow runtimeState c
    have hs := h.store
    refine h.setStore ⟨?_, hs.ordered, fun hterm => ?_, hs.issued, hs.deleted, hs.kept⟩ fun _ o _ ho => ?_
    · obtain ⟨row', hrow'⟩ := hs.row
      simp only [AssocList.lookup_insert_ite]
      split
      · exact ⟨_, rfl⟩
      · exact ⟨row', hrow'⟩
    · rw [stateOf, hstates]
      exact hs.terminated hterm
    · exact ho.of_frame (fun _ => hstates) (fun _ e he _ => he) (fun i hi => hi) fun e he => (ho.fresh e he).2

/-- A step keeps the invariant. -/
theorem sound_step {c : Chat} {s s' : SessionSystem Chat Tx} {op : SessionOp Chat Tx} (h : Sound c s)
    (hstep : Sessions.step s op = some s') : Sound c s' := by
  cases op with
  | begin tx call =>
    simp only [Sessions.step] at hstep
    split at hstep
    · exact Option.some.inj hstep ▸ sound_begin h tx call
    · cases hstep
  | run tx eventId =>
    simp only [Sessions.step] at hstep
    split at hstep
    · cases hstep
    · next hid =>
      obtain ⟨t, hfind, hstep⟩ := Option.bind_eq_some_iff.mp hstep
      obtain ⟨t', hrun, rfl⟩ := Option.map_eq_some_iff.mp hstep
      exact sound_run h hfind hid hrun
  | commit tx =>
    obtain ⟨t, hfind, hstep⟩ := Option.bind_eq_some_iff.mp hstep
    split at hstep
    · exact Option.some.inj hstep ▸ sound_commit h hfind
    · cases hstep
  | rollback tx =>
    obtain ⟨t, _, rfl⟩ := Option.map_eq_some_iff.mp hstep
    exact h.put (fun _ _ => pairOk_symm) h.store (by simp) (fun _ _ ho => ho) (by simp)
  | setSessionRuntime chatId runtimeState =>
    obtain ⟨store, hreport, rfl⟩ := Option.map_eq_some_iff.mp hstep
    exact sound_report h hreport

/-- The start is sound. -/
theorem storeOk_start {c : Chat} {store : SessionStore Chat} (h : TraceStart c store) : StoreOk c store where
  row := Option.isSome_iff_exists.mp h.row
  ordered := by
    have := h.ordered
    rw [List.pairwise_map, eventsOf, List.pairwise_filter] at this
    simpa only [decide_eq_true_eq] using this
  terminated hterm := by
    rw [h.history] at hterm
    cases hterm
  issued := h.issued
  deleted ids hids := by
    rw [h.history] at hids
    exact absurd hids List.not_mem_nil
  kept before ids after hhistory := by
    rw [h.history] at hhistory
    exact absurd hhistory.symm (by simp)

end TerminateTracesAux

open TerminateTracesAux

/-! ## The result -/

/-- In every run a terminate clears the traces of its session, until an upsert writes a state other than `evicted`. -/
theorem terminate_leaves_no_traces :
    AlwaysClears (fun state => decide (state ≠ .evicted)) (ofPartial fun s : SessionSystem Chat Tx => Sessions.step s) := by
  intro c store hstart ops s hrun
  have hsound : Sound c s :=
    hrun.invariant (fun s op s' hs hstep => sound_step hs hstep) (Invariant.idle (storeOk_start hstart))
  have hs := hsound.store
  refine ⟨fun before ids after hhistory hrevives => ?_, hs.kept, ?_⟩
  · have hterm : isTerminated c s.store.history = true := by
      rw [hhistory]
      exact isTerminated_of_finalized fun state hmem => by simpa using hrevives state hmem
    rw [eventsOf, List.filter_eq_nil_iff]
    intro e he
    simpa using (hs.terminated hterm).2 e he
  · rw [List.pairwise_map, eventsOf, List.pairwise_filter]
    simpa only [decide_eq_true_eq] using hs.ordered

/-! ## An upsert of `suspended` -/

namespace TerminateTracesExample

/-- A suspended session with one event. -/
def start : SessionStore Nat :=
  { sessions := AList.singleton 1 { state := .suspended, runtimeState := .idle }, presence := none,
    events := [{ id := 0, chatId := 1, seq := 4 }], issuedIds := [0], history := [] }

/-- A call from its beginning to its commit, in so many statements. -/
def call (tx : Nat) (call : SessionCall Nat) (statements : Nat) : List (SessionOp Nat Nat) :=
  SessionOp.begin tx call :: (List.range statements).map (fun i => SessionOp.run tx (10 * tx + i)) ++ [SessionOp.commit tx]

/-- A terminate, an upsert over the evicted row, and an append. -/
def reviveOps (state : SessionState) : List (SessionOp Nat Nat) :=
  call 1 (.finalizeTerminatedSession 1) 5 ++ call 2 (.upsertSessionState 1 state) 4 ++ call 3 (.appendLiveEvent 1) 3

/-- An append that finds the row evicted is dropped; one that follows a revival starts again from the events that are left. -/
example : ((call 1 (.finalizeTerminatedSession 1) 5 ++ call 2 (.appendLiveEvent 1) 1 ++ call 3 (.upsertSessionState 1 .active) 4 ++
    call 4 (.appendLiveEvent 1) 3).foldlM Sessions.step (.idle start)).map (fun s => (s.store.events, s.store.history)) =
      some ([{ id := 42, chatId := 1, seq := 1 }],
        [.finalized 1 [0], .upserted 1 .active, .appended { id := 42, chatId := 1, seq := 1 }]) := by
  decide

end TerminateTracesExample

open TerminateTracesExample in
/-- An upsert of `suspended` revives an evicted row too: events exist after a terminate without an upsert of `active`. -/
theorem terminate_leaves_traces :
    ¬ AlwaysClears (fun state => decide (state = .active)) (ofPartial fun s : SessionSystem Nat Nat => Sessions.step s) := by
  intro h
  have hstart : TraceStart 1 start := by
    refine ⟨by decide, by decide, by decide, rfl⟩
  have hout : ((reviveOps .suspended).foldlM Sessions.step (.idle start)).map (fun s => (s.store.events, s.store.history)) =
      some ([{ id := 32, chatId := 1, seq := 1 }],
        [.finalized 1 [0], .upserted 1 .suspended, .appended { id := 32, chatId := 1, seq := 1 }]) := by
    decide
  obtain ⟨s, hs, heq⟩ := Option.map_eq_some_iff.mp hout
  obtain ⟨hevents, hhistory⟩ := Prod.mk.inj heq
  have hcleared := (h 1 start hstart _ s (Run.of_foldlM hs)).cleared [] [0] _ hhistory fun state hmem => by
    rcases List.mem_cons.mp hmem with hmem | hmem
    · obtain ⟨_, rfl⟩ := SessionCommit.upserted.inj hmem
      rfl
    · exact absurd hmem (by simp)
  rw [eventsOf, hevents] at hcleared
  exact absurd hcleared (by decide)

end FirstTree
