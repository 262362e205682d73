import FirstTree.Lib.AssocList
import FirstTree.Server.Sessions

/-!
# Locks and commits of session transactions

What every statement of a session transaction keeps to: it locks a session row before it writes it, takes only locks that are
free, and a commit changes only rows its transaction has locked.
-/

namespace FirstTree

open Transactions Sessions

variable {Chat Tx : Type} [DecidableEq Chat] [DecidableEq Tx]

namespace SessionsAux

/-! ## Rows and counts -/

/-- The counts are read from the states. -/
theorem countRows_congr {m m' : SessionRows Chat}
    (h : ∀ c, (m.lookup c).map SessionRow.state = (m'.lookup c).map SessionRow.state) : countRows m = countRows m' := by
  have hperm := AssocList.map_entries_perm SessionRow.state h
  have hcount : ∀ (p : SessionState → Bool) (m : SessionRows Chat), (m.entries.countP fun e => p e.2.state) =
      (m.entries.map fun e => (e.1, e.2.state)).countP fun e => p e.2 := by
    intro p m
    rw [List.countP_map]
    rfl
  have heq : ∀ p : SessionState → Bool, (m.entries.countP fun e => p e.2.state) = m'.entries.countP fun e => p e.2.state := by
    intro p
    rw [hcount p m, hcount p m', hperm.countP_eq]
  exact congrArg₂ PresenceCounts.mk (heq fun st => decide (st = .active)) (heq fun st => decide (st ≠ .evicted))

/-- A committed row after a commit is the one the transaction wrote, or the one before it. -/
theorem lookup_commitStore (store : SessionStore Chat) (t : SessionTx Chat) (c : Chat) :
    (commitStore store t).sessions.lookup c = (t.rows.lookup c).or (store.sessions.lookup c) :=
  AssocList.lookup_union t.rows store.sessions c

/-- A runtime report writes the runtime of an active session, or nothing. -/
theorem reportRuntime_cases {store store' : SessionStore Chat} {c : Chat} {runtimeState : RuntimeState} {free : Bool}
    (h : reportRuntime store c runtimeState free = some store') :
    store' = store ∨ ∃ row, store.sessions.lookup c = some row ∧ row.state = .active ∧
      store' = { store with sessions := store.sessions.insert c { row with runtimeState := runtimeState } } := by
  unfold reportRuntime at h
  split at h
  · next row hrow =>
    split at h
    · exact Or.inl (Option.some.inj h).symm
    · next hactive =>
      split at h
      · exact Or.inr ⟨row, hrow, not_not.mp hactive, (Option.some.inj h).symm⟩
      · exact absurd h nofun
  · exact Or.inl (Option.some.inj h).symm

/-- A write of the runtime keeps the states. -/
theorem states_insert {m : SessionRows Chat} {c : Chat} {row : SessionRow} (h : m.lookup c = some row) (runtimeState : RuntimeState)
    (c' : Chat) :
    ((m.insert c { row with runtimeState := runtimeState }).lookup c').map SessionRow.state = (m.lookup c').map SessionRow.state := by
  rw [AssocList.lookup_insert_ite]
  split
  · next heq => rw [heq, h, Option.map_some, Option.map_some]
  · rfl

/-! ## Locks -/

/-- The session row a statement acts on, which an earlier statement has locked. -/
def targetRow : SessionStatement Chat → Option Chat
  | .writeTransition chatId _ _ => some chatId
  | .repairEvicted chatId => some chatId
  | .evictRow chatId => some chatId
  | .clearEvents chatId _ => some chatId
  | _ => none

/-- The rows a transaction has written or is about to write are locked by it. -/
structure LocksHeld (t : SessionTx Chat) : Prop where
  rows : ∀ c row, t.rows.lookup c = some row → c ∈ t.lockedRows
  target : ∀ c, targetRow t.next = some c → c ∈ t.lockedRows

/-- Two transactions lock no session row together. -/
abbrev Apart (t t' : SessionTx Chat) : Prop := Exclusive (fun (t : SessionTx Chat) c => c ∈ t.lockedRows) t t'

omit [DecidableEq Chat] in
theorem apart_symm {t t' : SessionTx Chat} (h : Apart t t') : Apart t' t := Exclusive.symm h

/-- A free row is locked by no other transaction. -/
theorem not_locked_of_rowFree {s : SessionSystem Chat Tx} {tx : Tx} {c : Chat} (h : rowFree s tx c = true) :
    ∀ o ∈ s.others tx, c ∉ o.lockedRows := by
  simpa [rowFree] using h

omit [DecidableEq Chat] in
@[simp] theorem next_lockRow (t : SessionTx Chat) (c : Chat) (next : SessionStatement Chat) : (lockRow t c next).next = next := rfl

@[simp] theorem next_writeRow (t : SessionTx Chat) (c : Chat) (row : SessionRow) (next : SessionStatement Chat) :
    (writeRow t c row next).next = next := rfl

/-- Writing a row locks nothing new. -/
theorem LocksHeld.writeRow {t : SessionTx Chat} (h : LocksHeld t) {c : Chat} (hc : c ∈ t.lockedRows) (row : SessionRow)
    {next : SessionStatement Chat} (hnext : ∀ c', targetRow next = some c' → c' = c) : LocksHeld (writeRow t c row next) where
  rows c' row' hrow := by
    simp only [Sessions.writeRow, AssocList.lookup_insert_ite] at hrow
    split at hrow
    · next heq => exact heq ▸ hc
    · exact h.rows c' row' hrow
  target c' hc' := hnext c' hc' ▸ hc

/-- Locking a row makes it the one to act on. -/
theorem LocksHeld.lockRow {t : SessionTx Chat} (h : LocksHeld t) (c : Chat) {next : SessionStatement Chat}
    (hnext : ∀ c', targetRow next = some c' → c' = c) : LocksHeld (lockRow t c next) where
  rows c' row' hrow := List.mem_cons_of_mem c (h.rows c' row' hrow)
  target c' hc' := hnext c' hc' ▸ List.mem_cons_self

/-- A statement that writes no row and leads to one that acts on no row it has not locked. -/
theorem LocksHeld.of_rows {t t' : SessionTx Chat} (h : LocksHeld t) (hrows : t'.rows = t.rows)
    (hlocked : t'.lockedRows = t.lockedRows) (hnext : ∀ c, targetRow t'.next = some c → c ∈ t.lockedRows) : LocksHeld t' where
  rows c row hrow := by
    rw [hrows] at hrow
    rw [hlocked]
    exact h.rows c row hrow
  target c hc := by
    rw [hlocked]
    exact hnext c hc

omit [DecidableEq Chat] in
/-- A suspend or an archive is done with its locked row, or writes it next. -/
theorem next_decideTransition (t : SessionTx Chat) (c : Chat) (target : SessionState) (sources : List SessionState)
    (row : SessionRow) : (decideTransition t c target sources row).next = .done ∨
      (decideTransition t c target sources row).next = .writeTransition c target (sources.contains row.state) :=
  ite_eq_or_eq _ _ _

omit [DecidableEq Chat] in
/-- A write of the counters touches nothing else. -/
theorem writePresence_frame {s : SessionSystem Chat Tx} {tx : Tx} {t u : SessionTx Chat} {insertPresence : Bool}
    {counts : PresenceCounts} (h : Sessions.writePresence s tx t insertPresence counts = some u) :
    u.rows = t.rows ∧ u.lockedRows = t.lockedRows ∧ u.newEvents = t.newEvents ∧ u.deletedIds = t.deletedIds ∧ u.outcome = t.outcome ∧
      u.next = .done := by
  unfold Sessions.writePresence at h
  split at h
  · obtain rfl := Option.some.inj h
    exact ⟨rfl, rfl, rfl, rfl, rfl, rfl⟩
  · split at h
    · obtain rfl := Option.some.inj h
      exact ⟨rfl, rfl, rfl, rfl, rfl, rfl⟩
    · exact absurd h nofun

/-- A statement keeps to the locks, and locks no row that another transaction holds. -/
theorem locks_run {s : SessionSystem Chat Tx} {tx : Tx} {t t' : SessionTx Chat} {eventId : Nat} (hl : LocksHeld t)
    (h : runStatement s tx t eventId = some t') :
    LocksHeld t' ∧ ∀ c ∈ t'.lockedRows, c ∈ t.lockedRows ∨ rowFree s tx c = true := by
  -- A statement that takes no row lock and writes no row.
  have still : ∀ u : SessionTx Chat, some u = some t' → u.rows = t.rows → u.lockedRows = t.lockedRows →
      (∀ c, targetRow u.next = some c → c ∈ t.lockedRows) →
      LocksHeld t' ∧ ∀ c ∈ t'.lockedRows, c ∈ t.lockedRows ∨ rowFree s tx c = true := by
    intro u heq hrows hlocked hnext
    obtain rfl := Option.some.inj heq
    exact ⟨hl.of_rows hrows hlocked hnext, fun c hc => Or.inl (hlocked ▸ hc)⟩
  -- A statement that takes one free row lock.
  have locks : ∀ (c : Chat) (next : SessionStatement Chat), some (lockRow t c next) = some t' → rowFree s tx c = true →
      (∀ c', targetRow next = some c' → c' = c) →
      LocksHeld t' ∧ ∀ c ∈ t'.lockedRows, c ∈ t.lockedRows ∨ rowFree s tx c = true := by
    intro c next heq hfree hnext
    obtain rfl := Option.some.inj heq
    refine ⟨hl.lockRow c hnext, fun c' hc' => ?_⟩
    rcases List.mem_cons.mp hc' with rfl | hc'
    · exact Or.inr hfree
    · exact Or.inl hc'
  -- A statement that writes the row it acts on.
  have writes : ∀ (c : Chat) (row : SessionRow) (next : SessionStatement Chat), some (writeRow t c row next) = some t' →
      targetRow t.next = some c → (∀ c', targetRow next = some c' → c' = c) →
      LocksHeld t' ∧ ∀ c ∈ t'.lockedRows, c ∈ t.lockedRows ∨ rowFree s tx c = true := by
    intro c row next heq hc hnext
    obtain rfl := Option.some.inj heq
    exact ⟨hl.writeRow (hl.target c hc) row hnext, fun c' hc' => Or.inl hc'⟩
  -- A statement that takes one free row lock and writes the row.
  have lockWrites : ∀ (c : Chat) (row : SessionRow) (next next' : SessionStatement Chat), rowFree s tx c = true →
      targetRow next = none → targetRow next' = none → LocksHeld (writeRow (lockRow t c next) c row next') ∧
        ∀ c' ∈ (writeRow (lockRow t c next) c row next').lockedRows, c' ∈ t.lockedRows ∨ rowFree s tx c' = true := by
    intro c row next next' hfree hnext hnext'
    refine ⟨(hl.lockRow c (by simp [hnext])).writeRow List.mem_cons_self row (by simp [hnext']), fun c' hc' => ?_⟩
    rcases List.mem_cons.mp hc' with rfl | hc'
    · exact Or.inr hfree
    · exact Or.inl hc'
  unfold runStatement at h
  cases hn : t.next with
  | lockAgentShare chatId state =>
    simp only [hn] at h
    split at h
    · exact still _ h rfl rfl (by simp [targetRow])
    · exact absurd h nofun
  | upsertRow chatId state =>
    simp only [hn] at h
    split at h
    · next hfree =>
      have hwrite := fun runtimeState =>
          lockWrites chatId { state := state, runtimeState := runtimeState } .done (.countSessions true) hfree
        rfl rfl
      unfold Sessions.upsertRow at h
      split at h
      · obtain rfl := Option.some.inj h
        exact ⟨(hwrite .idle).1.of_rows rfl rfl (by simp [targetRow, Sessions.writeRow]), (hwrite .idle).2⟩
      · split at h
        · obtain rfl := Option.some.inj h
          exact ⟨(hwrite _).1.of_rows rfl rfl (by simp [targetRow, Sessions.writeRow]), (hwrite .idle).2⟩
        · exact locks chatId .done h hfree (by simp [targetRow])
    · exact absurd h nofun
  | lockForTransition chatId target sources =>
    simp only [hn] at h
    split at h
    · exact still _ h rfl rfl (by simp [targetRow])
    · split at h
      · next row _ hfree =>
        refine locks chatId _ h hfree fun c' (hc' : targetRow (decideTransition t chatId target sources row).next = some c') => ?_
        rcases next_decideTransition t chatId target sources row with hnext | hnext
        · rw [hnext] at hc'
          exact absurd hc' nofun
        · rw [hnext] at hc'
          exact (Option.some.inj hc').symm
      · exact absurd h nofun
  | writeTransition chatId state canTransition =>
    simp only [hn, Option.map_eq_some_iff] at h
    obtain ⟨row, _, heq⟩ := h
    refine writes chatId _ _ (congrArg some heq) (by rw [hn]; rfl) fun c' hc' => ?_
    split at hc' <;> exact absurd hc' nofun
  | lockForFinalize chatId =>
    simp only [hn] at h
    split at h
    · exact still _ h rfl rfl (by simp [targetRow])
    · split at h
      · next hfree =>
        unfold decideFinalize at h
        split at h
        · refine locks chatId _ h hfree fun c' hc' => ?_
          split at hc' <;> exact (Option.some.inj hc').symm
        · exact locks chatId _ h hfree (by simp [targetRow])
        · exact locks chatId _ h hfree (by simp [targetRow])
        · exact locks chatId _ h hfree (by simp [targetRow])
      · exact absurd h nofun
  | repairEvicted chatId =>
    simp only [hn, Option.map_eq_some_iff] at h
    obtain ⟨row, _, heq⟩ := h
    exact writes chatId _ _ (congrArg some heq) (by rw [hn]; rfl) (by simp [targetRow])
  | evictRow chatId =>
    simp only [hn] at h
    exact writes chatId _ _ h (by rw [hn]; rfl) (by simp [targetRow])
  | clearEvents chatId transitioned =>
    simp only [hn] at h
    refine still _ h rfl rfl fun c hc => ?_
    simp only at hc
    split at hc <;> exact absurd hc nofun
  | countSessions insertPresence =>
    simp only [hn] at h
    exact still _ h rfl rfl (by simp [targetRow])
  | writePresence insertPresence counts =>
    simp only [hn] at h
    obtain ⟨hrows, hlocked, _, _, _, hnext⟩ := writePresence_frame h
    exact still t' rfl hrows hlocked (by simp [hnext, targetRow])
  | lockAgentUpdate =>
    simp only [hn] at h
    split at h
    · exact still _ h rfl rfl (by simp [targetRow])
    · exact absurd h nofun
  | scanSessions =>
    simp only [hn] at h
    exact still _ h rfl rfl (by simp [targetRow])
  | evictScanned chatIds =>
    cases chatIds with
    | nil =>
      simp only [hn] at h
      exact still _ h rfl rfl (by simp [targetRow])
    | cons chatId chatIds =>
      simp only [hn] at h
      split at h
      · next hfree =>
        split at h
        · split at h
          · obtain rfl := Option.some.inj h
            exact lockWrites chatId _ .done (.evictScanned chatIds) hfree rfl rfl
          · exact still _ h rfl rfl (by simp [targetRow])
        · exact still _ h rfl rfl (by simp [targetRow])
      · exact absurd h nofun
  | clearAllEvents =>
    simp only [hn] at h
    exact still _ h rfl rfl (by simp [targetRow])
  | zeroPresence =>
    simp only [hn, Option.map_eq_some_iff] at h
    obtain ⟨u, hu, heq⟩ := h
    obtain ⟨hrows, hlocked, _, _, _, hnext⟩ := writePresence_frame hu
    exact still _ (congrArg some heq) hrows hlocked (by simp [hnext, targetRow])
  | lockForAppend chatId =>
    simp only [hn] at h
    split at h
    · exact still _ h rfl rfl (by simp [targetRow])
    · split at h
      · next hfree =>
        refine locks chatId _ h hfree fun c' hc' => ?_
        split at hc' <;> exact absurd hc' nofun
      · exact absurd h nofun
  | nextSeq chatId =>
    simp only [hn] at h
    exact still _ h rfl rfl (by simp [targetRow])
  | insertEvent chatId seq =>
    simp only [hn] at h
    split at h
    · exact absurd h nofun
    · split at h
      · exact still _ h rfl rfl (by simp [targetRow])
      · exact still _ h rfl rfl (by simp [targetRow])
  | done =>
    simp only [hn] at h
    exact absurd h nofun

end SessionsAux

end FirstTree
