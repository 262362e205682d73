import FirstTree.Lib.Runs
import FirstTree.Lemmas.Sessions

/-!
# Session counters

Each writer counts the rows of the agent in its own transaction, and writes the counts over the presence row. The counters are
exact as long as a transaction counts only when no other open transaction has counted, and the archive of all sessions, which
writes zeros without counting, sees no session left. Two writers that count before either commits leave the counters of the
second. A runtime state of an inactive session is idle in every run.
-/

namespace FirstTree

open Runs Transactions

variable {Chat Tx : Type} [DecidableEq Chat] [DecidableEq Tx]

namespace Sessions

/-- An inactive session has no runtime. -/
def RowIdle (row : SessionRow) : Prop := row.state ≠ .active → row.runtimeState = .idle

/-- The projection is exact: inactive sessions are idle, and the counters, zero when there is no presence row, are those of the
rows. -/
structure ProjectionExact (store : SessionStore Chat) : Prop where
  idle : ∀ c row, store.sessions.lookup c = some row → RowIdle row
  counters : store.presence.getD ⟨0, 0⟩ = countRows store.sessions

/-- In every state of a run with no transaction open the projection is exact. -/
def ExactWhenQuiescent (steps : SessionSystem Chat Tx → SessionOp Chat Tx → SessionSystem Chat Tx → Prop) : Prop :=
  ∀ ops s, Run steps init ops s → s.Quiescent → ProjectionExact s.store

/-- A transaction counts when no other open transaction has counted; the archive of all sessions writes its zeros when no other open
transaction has counted, and it sees only evicted sessions. -/
def CountsApart (s : SessionSystem Chat Tx) (tx : Tx) (t : SessionTx Chat) : Prop :=
  match t.next with
  | .countSessions _ => ∀ o ∈ s.others tx, o.counted = none
  | .zeroPresence => (∀ o ∈ s.others tx, o.counted = none) ∧ ∀ e ∈ (visibleRows s.store t).entries, e.2.state = .evicted
  | _ => True

instance (s : SessionSystem Chat Tx) (tx : Tx) (t : SessionTx Chat) : Decidable (CountsApart s tx t) := by
  unfold CountsApart
  split <;> infer_instance

/-- Every count of the run is made apart from the others. -/
def NoStaleCount (s : SessionSystem Chat Tx) : SessionOp Chat Tx → Prop
  | .run tx _ => ∀ t ∈ s.find tx, CountsApart s tx t
  | _ => True

instance (s : SessionSystem Chat Tx) (op : SessionOp Chat Tx) : Decidable (NoStaleCount s op) := by
  unfold NoStaleCount
  split <;> infer_instance

end Sessions

open Sessions SessionsAux

namespace SessionCountersAux

/-! ## The parts of the invariant -/

/-- A statement whose transaction counts later. -/
def willCount : SessionStatement Chat → Bool
  | .countSessions _ => true
  | .clearEvents _ transitioned => transitioned
  | .evictScanned _ => true
  | .clearAllEvents => true
  | .zeroPresence => true
  | _ => false

/-- A statement of a transaction that updates the presence row, which is there since the session row is. -/
def updatesPresence : SessionStatement Chat → Bool
  | .writeTransition _ _ _ => true
  | .evictRow _ => true
  | .clearEvents _ transitioned => transitioned
  | .countSessions insertPresence => !insertPresence
  | .writePresence insertPresence _ => !insertPresence
  | _ => false

/-- What holds of the committed rows. -/
structure StoreOk (store : SessionStore Chat) : Prop where
  idle : ∀ c row, store.sessions.lookup c = some row → RowIdle row
  counters : store.presence.getD ⟨0, 0⟩ = countRows store.sessions
  present : store.presence = none → ∀ c, store.sessions.lookup c = none

/-- What a transaction that has counted has done since: it is about to write what it counted, or has written it, or found no row. -/
def Counted (store : SessionStore Chat) (t : SessionTx Chat) (k : PresenceCounts) : Prop :=
  k = countRows (visibleRows store t) ∧
    ((t.next = .done ∧ (t.presence = some k ∨ (t.presence = none ∧ store.presence = none ∧ k = ⟨0, 0⟩))) ∨
      ∃ insertPresence, t.next = .writePresence insertPresence k ∧ t.presence = none)

/-- What holds of an open transaction. -/
structure TxOk (store : SessionStore Chat) (t : SessionTx Chat) : Prop where
  locks : LocksHeld t
  idle : ∀ c row, t.rows.lookup c = some row → RowIdle row
  present : updatesPresence t.next = true → store.presence.isSome = true
  settled : t.counted = none → willCount t.next = false → ∀ c row, t.rows.lookup c = some row →
    (store.sessions.lookup c).map SessionRow.state = some row.state
  counted : ∀ k, t.counted = some k → Counted store t k
  uncounted : t.counted = none → t.presence = none ∧ ∀ insertPresence k, t.next ≠ .writePresence insertPresence k
  wrote : ∀ c row, t.rows.lookup c = some row → store.presence = none →
    t.presence.isSome = true ∨ t.next = .countSessions true ∨ ∃ k, t.next = .writePresence true k

/-- Two transactions lock no row together, and have not both counted. -/
def PairOk (t t' : SessionTx Chat) : Prop :=
  Apart t t' ∧ (t.counted = none ∨ t'.counted = none)

/-- The invariant of the sessions of an agent. -/
abbrev Sound (s : SessionSystem Chat Tx) : Prop :=
  Invariant StoreOk TxOk PairOk s

omit [DecidableEq Chat] in
theorem pairOk_symm {t t' : SessionTx Chat} (h : PairOk t t') : PairOk t' t :=
  ⟨apart_symm h.1, h.2.symm⟩

/-! ## Changes of the store -/

/-- A change that keeps the states of the rows and the presence row keeps what holds of a transaction. -/
theorem TxOk.of_states {store store' : SessionStore Chat} {t : SessionTx Chat} (h : TxOk store t)
    (hstates : ∀ c, (store'.sessions.lookup c).map SessionRow.state = (store.sessions.lookup c).map SessionRow.state)
    (hpresence : store'.presence = store.presence) : TxOk store' t where
  locks := h.locks
  idle := h.idle
  present hn := by
    rw [hpresence]
    exact h.present hn
  settled hc hw c row hrow := (hstates c).trans (h.settled hc hw c row hrow)
  counted k hk := by
    obtain ⟨hcount, hrest⟩ := h.counted k hk
    refine ⟨hcount.trans (countRows_congr fun c => ?_), by rwa [hpresence]⟩
    rw [visibleRows, visibleRows, AssocList.lookup_union, AssocList.lookup_union]
    cases t.rows.lookup c with
    | none => simpa using (hstates c).symm
    | some row => rfl
  uncounted := h.uncounted
  wrote c row hrow hp := h.wrote c row hrow (by rw [← hpresence, hp])

/-- A commit of a transaction that has not counted keeps the states of the rows. -/
theorem states_commit {store : SessionStore Chat} {t : SessionTx Chat} (h : TxOk store t) (hnone : t.counted = none)
    (hdone : t.next = .done) (c : Chat) :
    ((commitStore store t).sessions.lookup c).map SessionRow.state = (store.sessions.lookup c).map SessionRow.state := by
  rw [lookup_commitStore]
  cases hrow : t.rows.lookup c with
  | none => simp
  | some row =>
    have hsettled := h.settled hnone (by rw [hdone]; rfl) c row hrow
    simp [hsettled]

/-- A commit keeps what holds of the store. -/
theorem storeOk_commit {store : SessionStore Chat} {t : SessionTx Chat} (hs : StoreOk store) (h : TxOk store t)
    (hdone : t.next = .done) : StoreOk (commitStore store t) where
  idle c row hrow := by
    rw [lookup_commitStore] at hrow
    cases hown : t.rows.lookup c with
    | none =>
      rw [hown, Option.none_or] at hrow
      exact hs.idle c row hrow
    | some row' =>
      rw [hown, Option.some_or] at hrow
      obtain rfl := Option.some.inj hrow
      exact h.idle c row' hown
  counters := by
    cases hc : t.counted with
    | none =>
      rw [countRows_congr (states_commit h hc hdone), ← hs.counters]
      simp [commitStore, (h.uncounted hc).1]
    | some k =>
      obtain ⟨hcount, hrest⟩ := h.counted k hc
      rcases hrest with ⟨_, hp | ⟨hp, hstore, hzero⟩⟩ | ⟨_, hnext, _⟩
      · simp only [commitStore, hp, Option.some_or, Option.getD_some]
        exact hcount
      · simp only [commitStore, hp, hstore, Option.none_or, Option.getD_none]
        exact hzero.symm.trans hcount
      · rw [hdone] at hnext
        cases hnext
  present hp c := by
    simp only [commitStore, Option.or_eq_none_iff] at hp
    rw [lookup_commitStore, hs.present hp.2 c, Option.or_none]
    cases hrow : t.rows.lookup c with
    | none => rfl
    | some row =>
      rcases h.wrote c row hrow hp.2 with hw | hw | ⟨_, hw⟩
      · rw [hp.1] at hw
        cases hw
      · rw [hdone] at hw
        cases hw
      · rw [hdone] at hw
        cases hw

/-- A commit keeps what holds of another transaction. -/
theorem txOk_commit {store : SessionStore Chat} {t o : SessionTx Chat} (h : TxOk store t) (ho : TxOk store o) (hpair : PairOk t o)
    (hdone : t.next = .done) : TxOk (commitStore store t) o := by
  cases hc : t.counted with
  | none => exact ho.of_states (states_commit h hc hdone) (by simp [commitStore, (h.uncounted hc).1])
  | some k =>
    have hnone : o.counted = none := hpair.2.resolve_left (by rw [hc]; exact nofun)
    have hsome : store.presence.isSome = true → (commitStore store t).presence.isSome = true := by
      intro hp
      simp only [commitStore, Option.isSome_or, hp, Bool.or_true]
    refine ⟨ho.locks, ho.idle, fun hn => hsome (ho.present hn), fun _ hw c row hrow => ?_, fun k hk => ?_, ho.uncounted,
      fun c row hrow hp => ho.wrote c row hrow ?_⟩
    · -- The rows of the other transaction are locked by it, so this commit has not written them.
      have hfree : t.rows.lookup c = none := by
        cases hown : t.rows.lookup c with
        | none => rfl
        | some row' => exact absurd (ho.locks.rows c row hrow) (hpair.1 c (h.locks.rows c row' hown))
      rw [lookup_commitStore, hfree, Option.none_or]
      exact ho.settled hnone hw c row hrow
    · rw [hnone] at hk
      cases hk
    · exact (Option.or_eq_none_iff.mp hp).2

/-! ## One statement -/

/-- The counters are not counted before the statement that counts. -/
theorem counted_none {store : SessionStore Chat} {t : SessionTx Chat} (h : TxOk store t) (hdone : t.next ≠ .done)
    (hwrite : ∀ insertPresence k, t.next ≠ .writePresence insertPresence k) : t.counted = none := by
  cases hc : t.counted with
  | none => rfl
  | some k =>
    rcases (h.counted k hc).2 with ⟨hnext, _⟩ | ⟨insertPresence, hnext, _⟩
    · exact absurd hnext hdone
    · exact absurd hnext (hwrite insertPresence k)

/-- A statement of a transaction that has not counted, which writes no row and no counters. -/
theorem TxOk.move {store : SessionStore Chat} {t t' : SessionTx Chat} (h : TxOk store t) (hc : t.counted = none)
    (hlocks : LocksHeld t') (hrows : t'.rows = t.rows) (hcounted : t'.counted = t.counted) (hpresence : t'.presence = t.presence)
    (hn : t.next ≠ .countSessions true) (hpresent : updatesPresence t'.next = true → store.presence.isSome = true)
    (hwill : willCount t'.next = false → willCount t.next = false)
    (hwrite : ∀ insertPresence k, t'.next ≠ .writePresence insertPresence k) :
    TxOk store t' where
  locks := hlocks
  idle c row hrow := h.idle c row (hrows ▸ hrow)
  present := hpresent
  settled _ hw c row hrow := h.settled hc (hwill hw) c row (hrows ▸ hrow)
  counted k hk := by
    rw [hcounted, hc] at hk
    cases hk
  uncounted _ := ⟨hpresence.trans (h.uncounted hc).1, hwrite⟩
  wrote c row hrow hp := by
    rcases h.wrote c row (hrows ▸ hrow) hp with hw | hw | ⟨k, hw⟩
    · exact Or.inl (by rw [hpresence]; exact hw)
    · exact absurd hw hn
    · exact absurd hw ((h.uncounted hc).2 true k)

/-- A statement of a transaction that has not counted, which writes an idle row of the state it finds, or counts later. -/
theorem TxOk.write {store : SessionStore Chat} {t t' : SessionTx Chat} (h : TxOk store t) (hc : t.counted = none) {c : Chat}
    {row : SessionRow} (hlocks : LocksHeld t') (hrows : t'.rows = t.rows.insert c row) (hcounted : t'.counted = t.counted)
    (hpresence : t'.presence = t.presence) (hidle : RowIdle row) (hn : willCount t'.next = false → willCount t.next = false)
    (hstate : willCount t'.next = false → (store.sessions.lookup c).map SessionRow.state = some row.state)
    (hpresent : store.presence.isSome = true ∨ t'.next = .countSessions true)
    (hwrite : ∀ insertPresence k, t'.next ≠ .writePresence insertPresence k) : TxOk store t' where
  locks := hlocks
  idle c' row' hrow := by
    rw [hrows, AssocList.lookup_insert_ite] at hrow
    split at hrow
    · exact Option.some.inj hrow ▸ hidle
    · exact h.idle c' row' hrow
  present hu := by
    rcases hpresent with hp | hp
    · exact hp
    · rw [hp] at hu
      cases hu
  settled _ hw c' row' hrow := by
    rw [hrows, AssocList.lookup_insert_ite] at hrow
    split at hrow
    · next heq => exact heq ▸ Option.some.inj hrow ▸ hstate hw
    · exact h.settled hc (hn hw) c' row' hrow
  counted k hk := by
    rw [hcounted, hc] at hk
    cases hk
  uncounted _ := ⟨hpresence.trans (h.uncounted hc).1, hwrite⟩
  wrote c' row' _ hp := by
    rcases hpresent with hsome | hnext
    · rw [hp] at hsome
      cases hsome
    · exact Or.inr (Or.inl hnext)

/-- A committed session row means a presence row. -/
theorem presence_of_row {store : SessionStore Chat} (hs : StoreOk store) {c : Chat} {row : SessionRow}
    (h : store.sessions.lookup c = some row) : store.presence.isSome = true := by
  cases hp : store.presence with
  | some p => rfl
  | none =>
    rw [hs.present hp c] at h
    cases h

/-- A write of the counters of a transaction that has counted them. -/
theorem TxOk.writePresence {s : SessionSystem Chat Tx} {tx : Tx} {t t' : SessionTx Chat} (h : TxOk s.store t) {insertPresence : Bool}
    {k : PresenceCounts} (hlocks : LocksHeld t') (hcount : k = countRows (visibleRows s.store t)) (hnone : t.presence = none)
    (hzero : insertPresence = false → s.store.presence = none → k = ⟨0, 0⟩)
    (hrows : ∀ c row, t.rows.lookup c = some row → s.store.presence = none → insertPresence = true)
    (hstep : ∃ u, Sessions.writePresence s tx t insertPresence k = some u ∧ t' = { u with counted := some k }) : TxOk s.store t' := by
  obtain ⟨u, hu, rfl⟩ := hstep
  unfold Sessions.writePresence at hu
  split at hu
  · next hmissing =>
    obtain rfl := Option.some.inj hu
    have hstore : s.store.presence = none := Option.isNone_iff_eq_none.mp hmissing.1
    refine ⟨hlocks, h.idle, by simp [updatesPresence], by simp, fun k' hk => ?_, by simp, fun c row hrow hp => ?_⟩
    · obtain rfl := Option.some.inj hk
      exact ⟨hcount, Or.inl ⟨rfl, Or.inr ⟨hnone, hstore, hzero hmissing.2 hstore⟩⟩⟩
    · have := hrows c row hrow hp
      rw [hmissing.2] at this
      cases this
  · split at hu
    · obtain rfl := Option.some.inj hu
      refine ⟨hlocks, h.idle, by simp [updatesPresence], by simp, fun k' hk => ?_, by simp, fun _ _ _ _ => Or.inl rfl⟩
      obtain rfl := Option.some.inj hk
      exact ⟨hcount, Or.inl ⟨rfl, Or.inl rfl⟩⟩
    · cases hu

/-- A statement that is counted apart keeps what holds of its transaction. -/
theorem txOk_run {s : SessionSystem Chat Tx} {tx : Tx} {t t' : SessionTx Chat} {eventId : Nat} (hs : StoreOk s.store)
    (h : TxOk s.store t) (hguard : CountsApart s tx t) (hstep : runStatement s tx t eventId = some t') : TxOk s.store t' := by
  have hlocks := (locks_run h.locks hstep).1
  have hfresh := counted_none h
  unfold CountsApart at hguard
  unfold runStatement at hstep
  cases hn : t.next with
  | lockAgentShare chatId state =>
    simp only [hn] at hstep
    split at hstep
    · obtain rfl := Option.some.inj hstep
      exact h.move (hfresh (by simp [hn]) (by simp [hn])) hlocks rfl rfl rfl (by simp [hn]) (by simp [updatesPresence])
        (by simp [hn, willCount]) (by simp)
    · cases hstep
  | upsertRow chatId state =>
    have hc := hfresh (by simp [hn]) (by simp [hn])
    simp only [hn] at hstep
    split at hstep
    · unfold Sessions.upsertRow at hstep
      split at hstep
      · obtain rfl := Option.some.inj hstep
        exact h.write hc hlocks rfl rfl rfl (fun _ => rfl) (by simp [willCount]) (by simp [willCount]) (Or.inr rfl) (by simp)
      · split at hstep
        · obtain rfl := Option.some.inj hstep
          refine h.write hc hlocks rfl rfl rfl (fun hne => ?_) (by simp [willCount]) (by simp [willCount]) (Or.inr rfl) (by simp)
          exact if_pos hne
        · obtain rfl := Option.some.inj hstep
          exact h.move hc hlocks rfl rfl rfl (by simp [hn]) (by simp [updatesPresence]) (by simp [hn, willCount]) (by simp)
    · cases hstep
  | lockForTransition chatId target sources =>
    have hc := hfresh (by simp [hn]) (by simp [hn])
    simp only [hn] at hstep
    split at hstep
    · obtain rfl := Option.some.inj hstep
      exact h.move hc hlocks rfl rfl rfl (by simp [hn]) (by simp [updatesPresence]) (by simp [hn, willCount]) (by simp)
    · next row hrow =>
      split at hstep
      · obtain rfl := Option.some.inj hstep
        refine h.move hc hlocks rfl rfl rfl (by simp [hn]) (fun _ => presence_of_row hs hrow) (by simp [hn, willCount]) fun i k => ?_
        rcases next_decideTransition t chatId target sources row with hnext | hnext <;> simp [hnext]
      · cases hstep
  | writeTransition chatId target canTransition =>
    have hc := hfresh (by simp [hn]) (by simp [hn])
    simp only [hn, Option.map_eq_some_iff] at hstep
    obtain ⟨row, hrow, rfl⟩ := hstep
    refine h.write hc hlocks rfl rfl rfl (fun _ => rfl) (by simp [hn, willCount]) (fun hw => ?_) (Or.inl (presence_of_row hs hrow))
      fun i k => ?_
    · cases canTransition with
      | true => cases hw
      | false => simp [hrow]
    · cases canTransition <;> simp [Sessions.writeRow]
  | lockForFinalize chatId =>
    have hc := hfresh (by simp [hn]) (by simp [hn])
    simp only [hn] at hstep
    split at hstep
    · obtain rfl := Option.some.inj hstep
      exact h.move hc hlocks rfl rfl rfl (by simp [hn]) (by simp [updatesPresence]) (by simp [hn, willCount]) (by simp)
    · next row hrow =>
      split at hstep
      · obtain rfl := Option.some.inj hstep
        have hp := presence_of_row hs hrow
        have hmove : ∀ next, (∀ i k, next ≠ SessionStatement.writePresence i k) → LocksHeld (lockRow t chatId next) →
            TxOk s.store (lockRow t chatId next) := fun next hnext hl =>
          h.move hc hl rfl rfl rfl (by simp [hn]) (fun _ => hp) (by simp [hn, willCount]) hnext
        unfold decideFinalize at hlocks ⊢
        split at hlocks
        · exact hmove _ (by split <;> simp) hlocks
        · exact hmove _ (by simp) hlocks
        · exact hmove _ (by simp) hlocks
        · exact hmove _ (by simp) hlocks
      · cases hstep
  | repairEvicted chatId =>
    have hc := hfresh (by simp [hn]) (by simp [hn])
    simp only [hn, Option.map_eq_some_iff] at hstep
    obtain ⟨row, hrow, rfl⟩ := hstep
    exact h.write hc hlocks rfl rfl rfl (fun _ => rfl) (by simp [hn, willCount]) (fun _ => by simp [hrow])
      (Or.inl (presence_of_row hs hrow)) (by simp)
  | evictRow chatId =>
    have hc := hfresh (by simp [hn]) (by simp [hn])
    simp only [hn] at hstep
    obtain rfl := Option.some.inj hstep
    exact h.write hc hlocks rfl rfl rfl (fun _ => rfl) (by simp [willCount]) (by simp [willCount])
      (Or.inl (h.present (by rw [hn]; rfl))) (by simp)
  | clearEvents chatId transitioned =>
    have hc := hfresh (by simp [hn]) (by simp [hn])
    have hp := h.present
    simp only [hn] at hstep
    obtain rfl := Option.some.inj hstep
    cases transitioned with
    | true => exact h.move hc hlocks rfl rfl rfl (by simp [hn]) (fun _ => hp (by rw [hn]; rfl)) (by simp [willCount]) (by simp)
    | false => exact h.move hc hlocks rfl rfl rfl (by simp [hn]) (by simp [updatesPresence]) (by simp [hn, willCount]) (by simp)
  | countSessions insertPresence =>
    have hc := hfresh (by simp [hn]) (by simp [hn])
    have hp := h.present
    simp only [hn] at hstep
    obtain rfl := Option.some.inj hstep
    refine ⟨hlocks, h.idle, fun hu => hp (by rw [hn]; exact hu), by simp, fun k hk => ?_, by simp, fun c row hrow hnone => ?_⟩
    · obtain rfl := Option.some.inj hk
      exact ⟨rfl, Or.inr ⟨insertPresence, rfl, (h.uncounted hc).1⟩⟩
    · rcases h.wrote c row hrow hnone with hw | hw | ⟨k, hw⟩
      · exact Or.inl hw
      · rw [hn] at hw
        obtain rfl : insertPresence = true := by simpa using hw
        exact Or.inr (Or.inr ⟨_, rfl⟩)
      · rw [hn] at hw
        cases hw
  | writePresence insertPresence k =>
    simp only [hn] at hstep
    cases hc : t.counted with
    | none => exact absurd hn ((h.uncounted hc).2 insertPresence k)
    | some k' =>
      obtain ⟨hcount, hrest⟩ := h.counted k' hc
      rcases hrest with ⟨hdone, _⟩ | ⟨i, hnext, hnone⟩
      · rw [hn] at hdone
        cases hdone
      · rw [hn] at hnext
        obtain ⟨rfl, rfl⟩ : insertPresence = i ∧ k = k' := by simpa using hnext
        refine h.writePresence hlocks hcount hnone (fun hi hstore => ?_) (fun c row hrow hstore => ?_) ⟨t', hstep, ?_⟩
        · have hp := h.present (by rw [hn, hi]; rfl)
          rw [hstore] at hp
          cases hp
        · rcases h.wrote c row hrow hstore with hw | hw | ⟨k', hw⟩
          · rw [hnone] at hw
            cases hw
          · rw [hn] at hw
            cases hw
          · rw [hn] at hw
            simpa using (SessionStatement.writePresence.inj hw).1
        · unfold Sessions.writePresence at hstep
          split at hstep
          · obtain rfl := Option.some.inj hstep
            rw [← hc]
          · split at hstep
            · obtain rfl := Option.some.inj hstep
              rw [← hc]
            · cases hstep
  | lockAgentUpdate =>
    simp only [hn] at hstep
    split at hstep
    · obtain rfl := Option.some.inj hstep
      exact h.move (hfresh (by simp [hn]) (by simp [hn])) hlocks rfl rfl rfl (by simp [hn]) (by simp [updatesPresence])
        (by simp [hn, willCount]) (by simp)
    · cases hstep
  | scanSessions =>
    simp only [hn] at hstep
    obtain rfl := Option.some.inj hstep
    exact h.move (hfresh (by simp [hn]) (by simp [hn])) hlocks rfl rfl rfl (by simp [hn]) (by simp [updatesPresence])
      (by simp [willCount]) (by simp)
  | evictScanned chatIds =>
    have hc := hfresh (by simp [hn]) (by simp [hn])
    cases chatIds with
    | nil =>
      simp only [hn] at hstep
      obtain rfl := Option.some.inj hstep
      exact h.move hc hlocks rfl rfl rfl (by simp [hn]) (by simp [updatesPresence]) (by simp [willCount]) (by simp)
    | cons chatId chatIds =>
      simp only [hn] at hstep
      split at hstep
      · split at hstep
        · next row hrow =>
          split at hstep
          · obtain rfl := Option.some.inj hstep
            exact h.write hc hlocks rfl rfl rfl (fun _ => rfl) (by simp [willCount]) (by simp [willCount])
              (Or.inl (presence_of_row hs hrow)) (by simp)
          · obtain rfl := Option.some.inj hstep
            exact h.move hc hlocks rfl rfl rfl (by simp [hn]) (by simp [updatesPresence]) (by simp [willCount]) (by simp)
        · obtain rfl := Option.some.inj hstep
          exact h.move hc hlocks rfl rfl rfl (by simp [hn]) (by simp [updatesPresence]) (by simp [willCount]) (by simp)
      · cases hstep
  | clearAllEvents =>
    simp only [hn] at hstep
    obtain rfl := Option.some.inj hstep
    exact h.move (hfresh (by simp [hn]) (by simp [hn])) hlocks rfl rfl rfl (by simp [hn]) (by simp [updatesPresence])
      (by simp [willCount]) (by simp)
  | zeroPresence =>
    have hc := hfresh (by simp [hn]) (by simp [hn])
    simp only [hn, Option.map_eq_some_iff] at hstep
    obtain ⟨u, hu, rfl⟩ := hstep
    rw [hn] at hguard
    have hcount : (⟨0, 0⟩ : PresenceCounts) = countRows (visibleRows s.store t) := by
      have hzero : ∀ p : SessionState → Bool, p .evicted = false →
          ((visibleRows s.store t).entries.countP fun e => p e.2.state) = 0 := by
        intro p hp
        refine List.countP_eq_zero.mpr fun e he => ?_
        rw [hguard.2 e he, hp]
        simp
      exact congrArg₂ PresenceCounts.mk (hzero (fun st => decide (st = .active)) rfl).symm
        (hzero (fun st => decide (st ≠ .evicted)) rfl).symm
    refine h.writePresence hlocks hcount (h.uncounted hc).1 (fun _ _ => rfl) (fun c row hrow hstore => ?_) ⟨u, hu, rfl⟩
    rcases h.wrote c row hrow hstore with hw | hw | ⟨k', hw⟩
    · rw [(h.uncounted hc).1] at hw
      cases hw
    · rw [hn] at hw
      cases hw
    · rw [hn] at hw
      cases hw
  | lockForAppend chatId =>
    have hc := hfresh (by simp [hn]) (by simp [hn])
    simp only [hn] at hstep
    split at hstep
    · obtain rfl := Option.some.inj hstep
      exact h.move hc hlocks rfl rfl rfl (by simp [hn]) (by simp [updatesPresence]) (by simp [hn, willCount]) (by simp)
    · next row hrow =>
      split at hstep
      · obtain rfl := Option.some.inj hstep
        refine h.move hc hlocks rfl rfl rfl (by simp [hn]) (fun _ => presence_of_row hs hrow) (by simp [hn, willCount]) fun i k => ?_
        simp only [lockRow]
        split <;> simp
      · cases hstep
  | nextSeq chatId =>
    simp only [hn] at hstep
    obtain rfl := Option.some.inj hstep
    exact h.move (hfresh (by simp [hn]) (by simp [hn])) hlocks rfl rfl rfl (by simp [hn]) (by simp [updatesPresence])
      (by simp [hn, willCount]) (by simp)
  | insertEvent chatId seq =>
    have hc := hfresh (by simp [hn]) (by simp [hn])
    simp only [hn] at hstep
    split at hstep
    · cases hstep
    · split at hstep
      · obtain rfl := Option.some.inj hstep
        exact h.move hc hlocks rfl rfl rfl (by simp [hn]) (by simp [updatesPresence]) (by simp [hn, willCount]) (by simp)
      · obtain rfl := Option.some.inj hstep
        exact h.move hc hlocks rfl rfl rfl (by simp [hn]) (by simp [updatesPresence]) (by simp [hn, willCount]) (by simp)
  | done =>
    simp only [hn] at hstep
    cases hstep

/-- Only the statements that count change what is counted. -/
theorem counted_eq {s : SessionSystem Chat Tx} {tx : Tx} {t t' : SessionTx Chat} {eventId : Nat}
    (hstep : runStatement s tx t eventId = some t') (hcount : ∀ i, t.next ≠ .countSessions i) (hzero : t.next ≠ .zeroPresence) :
    t'.counted = t.counted := by
  unfold runStatement at hstep
  split at hstep <;>
    grind [Sessions.upsertRow, lockRow, writeRow, decideTransition, decideFinalize, Sessions.writePresence, Option.map_eq_some_iff]

/-- A runtime report keeps the states, the presence row and the idle rows. -/
theorem reportRuntime_ok {store store' : SessionStore Chat} {c : Chat} {runtimeState : RuntimeState} {free : Bool}
    (h : reportRuntime store c runtimeState free = some store') (hs : StoreOk store) :
    StoreOk store' ∧ (∀ c', (store'.sessions.lookup c').map SessionRow.state = (store.sessions.lookup c').map SessionRow.state) ∧
      store'.presence = store.presence := by
  rcases reportRuntime_cases h with rfl | ⟨row, hrow, hactive, rfl⟩
  · exact ⟨hs, fun _ => rfl, rfl⟩
  · have hstates := states_insert hrow runtimeState
    refine ⟨⟨fun c' row' hrow' => ?_, ?_, fun hp => ?_⟩, hstates, rfl⟩
    · simp only [AssocList.lookup_insert_ite] at hrow'
      split at hrow'
      · obtain rfl := Option.some.inj hrow'
        exact fun hne => absurd hactive hne
      · exact hs.idle c' row' hrow'
    · rw [countRows_congr hstates]
      exact hs.counters
    · have := hs.present hp c
      rw [hrow] at this
      cases this

/-! ## One step -/

/-- A call begins with nothing read or written. -/
theorem sound_begin {s : SessionSystem Chat Tx} (h : Sound s) (tx : Tx) (call : SessionCall Chat) :
    Sound (s.put s.store tx (some (newTx call))) := by
  refine h.put (fun _ _ => pairOk_symm) h.store (fun t ht => ?_) (fun _ _ ho => ho) fun t ht o ho => ?_
  · obtain rfl := Option.some.inj ht
    have hfirst : targetRow (firstStatement call) = none ∧ updatesPresence (firstStatement call) = false ∧
        ∀ i k, firstStatement call ≠ .writePresence i k := by
      cases call with
      | archiveAllSessionsForAgent claim => cases claim <;> exact ⟨rfl, rfl, nofun⟩
      | _ => exact ⟨rfl, rfl, nofun⟩
    have hempty : ∀ c row, (newTx call).rows.lookup c ≠ some row := fun c row hrow => absurd hrow (by simp [newTx])
    exact ⟨⟨fun c row hrow => absurd hrow (hempty c row), fun c hc => absurd (hfirst.1.symm.trans hc) nofun⟩,
      fun c row hrow => absurd hrow (hempty c row), fun hu => absurd (hfirst.2.1.symm.trans hu) nofun,
      fun _ _ c row hrow => absurd hrow (hempty c row), nofun, fun _ => ⟨rfl, hfirst.2.2⟩,
      fun c row hrow => absurd hrow (hempty c row)⟩
  · obtain rfl := Option.some.inj ht
    exact ⟨fun c hc => absurd hc List.not_mem_nil, Or.inl rfl⟩

/-- After a statement that is counted apart, its transaction is apart from the others. -/
theorem pairOk_run {s : SessionSystem Chat Tx} {tx : Tx} {t t' : SessionTx Chat} {eventId : Nat} (ht : TxOk s.store t)
    (hguard : CountsApart s tx t) (hrun : runStatement s tx t eventId = some t') (hpairs : ∀ o ∈ s.others tx, PairOk t o) :
    ∀ o ∈ s.others tx, PairOk t' o := by
  intro o ho
  refine ⟨fun c hc => ?_, ?_⟩
  · rcases (locks_run ht.locks hrun).2 c hc with hc | hfree
    · exact (hpairs o ho).1 c hc
    · exact not_locked_of_rowFree hfree o ho
  · -- A transaction that counts now counts when no other has; one that has counted was apart from the others already.
    by_cases hcount : ∃ i, t.next = .countSessions i
    · obtain ⟨i, hn⟩ := hcount
      simp only [CountsApart, hn] at hguard
      exact Or.inr (hguard o ho)
    · by_cases hzero : t.next = .zeroPresence
      · simp only [CountsApart, hzero] at hguard
        exact Or.inr (hguard.1 o ho)
      · rw [counted_eq hrun (fun i hi => hcount ⟨i, hi⟩) hzero]
        exact (hpairs o ho).2

/-- A statement that is counted apart keeps the invariant. -/
theorem sound_run {s : SessionSystem Chat Tx} (h : Sound s) {tx : Tx} {t t' : SessionTx Chat} {eventId : Nat}
    (hfind : s.find tx = some t)
    (hguard : CountsApart s tx t) (hrun : runStatement s tx t eventId = some t') (issuedIds : List Nat) :
    Sound (s.put { s.store with issuedIds := issuedIds } tx (some t')) := by
  have ht := h.own tx t hfind
  have hissued : ∀ o : SessionTx Chat, TxOk s.store o → TxOk { s.store with issuedIds := issuedIds } o :=
    fun o ho => ho.of_states (fun _ => rfl) rfl
  have hstore : StoreOk { s.store with issuedIds := issuedIds } := ⟨h.store.idle, h.store.counters, h.store.present⟩
  refine h.put (fun _ _ => pairOk_symm) hstore (fun u hu => ?_) (fun o _ => hissued o) fun u hu => ?_
  · exact Option.some.inj hu ▸ hissued t' (txOk_run h.store ht hguard hrun)
  · obtain rfl := Option.some.inj hu
    refine pairOk_run ht hguard hrun fun o ho => ?_
    obtain ⟨k, hne, hother⟩ := System.mem_others.mp ho
    exact h.apart tx k t o (Ne.symm hne) hfind hother

/-- A commit keeps the invariant. -/
theorem sound_commit {s : SessionSystem Chat Tx} (h : Sound s) {tx : Tx} {t : SessionTx Chat} (hfind : s.find tx = some t)
    (hdone : t.next = .done) : Sound (s.put (commitStore s.store t) tx none) := by
  have ht := h.own tx t hfind
  refine h.put (fun _ _ => pairOk_symm) (storeOk_commit h.store ht hdone) (by simp) (fun o ho hok => ?_) (by simp)
  obtain ⟨k, hne, hother⟩ := System.mem_others.mp ho
  exact txOk_commit ht hok (h.apart tx k t o (Ne.symm hne) hfind hother) hdone

/-- A step whose counts are made apart keeps the invariant. -/
theorem sound_step {s s' : SessionSystem Chat Tx} {op : SessionOp Chat Tx} (h : Sound s) (hguard : NoStaleCount s op)
    (hstep : Sessions.step s op = some s') : Sound s' := by
  cases op with
  | begin tx call =>
    simp only [Sessions.step] at hstep
    split at hstep
    · exact Option.some.inj hstep ▸ sound_begin h tx call
    · cases hstep
  | run tx eventId =>
    simp only [Sessions.step] at hstep
    split at hstep
    · cases hstep
    · obtain ⟨t, hfind, hstep⟩ := Option.bind_eq_some_iff.mp hstep
      obtain ⟨t', hrun, rfl⟩ := Option.map_eq_some_iff.mp hstep
      exact sound_run h hfind (hguard t hfind) hrun _
  | commit tx =>
    obtain ⟨t, hfind, hstep⟩ := Option.bind_eq_some_iff.mp hstep
    split at hstep
    · next hdone => exact Option.some.inj hstep ▸ sound_commit h hfind hdone
    · cases hstep
  | rollback tx =>
    obtain ⟨t, _, rfl⟩ := Option.map_eq_some_iff.mp hstep
    exact h.put (fun _ _ => pairOk_symm) h.store (by simp) (fun _ _ ho => ho) (by simp)
  | setSessionRuntime c runtimeState =>
    obtain ⟨store, hreport, rfl⟩ := Option.map_eq_some_iff.mp hstep
    obtain ⟨hstore, hstates, hpresence⟩ := reportRuntime_ok hreport h.store
    exact h.setStore hstore fun _ _ _ ho => ho.of_states hstates hpresence

end SessionCountersAux

open SessionCountersAux

/-! ## The result -/

/-- In every run whose counts are made apart, the projection of the sessions is exact when no transaction is open. -/
theorem session_counters_exact :
    ExactWhenQuiescent (Guarded (fun s : SessionSystem Chat Tx => NoStaleCount s) (ofPartial Sessions.step)) := by
  intro ops s h _
  have hsound : Sound s := by
    refine h.invariant (fun s op s' hs hstep => sound_step hs hstep.1 hstep.2)
      (Invariant.idle ⟨fun c row hrow => ?_, rfl, fun _ c => ?_⟩)
    · exact absurd hrow (by simp)
    · simp
  exact ⟨hsound.store.idle, hsound.store.counters⟩

/-! ## Two upserts -/

namespace SessionCountersExample

/-- The statements of an upsert, up to its count. -/
def upsertUntilCount (tx chatId : Nat) : List (SessionOp Nat Nat) :=
  [.begin tx (.upsertSessionState chatId .active), .run tx (10 * tx), .run tx (10 * tx + 1), .run tx (10 * tx + 2)]

/-- The write of the counts, and the commit. -/
def upsertAfterCount (tx : Nat) : List (SessionOp Nat Nat) :=
  [.run tx (10 * tx + 3), .commit tx]

/-- The states of the rows and the counters of a state with no transaction open. -/
def outcome (s : SessionSystem Nat Nat) : List SessionState × Option PresenceCounts × Bool :=
  (s.store.sessions.entries.map fun e => e.2.state, s.store.presence, s.active.entries.isEmpty)

/-- One upsert after the other: the second counts both rows. -/
example : ((upsertUntilCount 0 1 ++ upsertAfterCount 0 ++ upsertUntilCount 1 2 ++ upsertAfterCount 1).foldlM
    (fun s op => if NoStaleCount s op then Sessions.step s op else none) Sessions.init).map outcome =
      some ([.active, .active], some ⟨2, 2⟩, true) := by
  decide

end SessionCountersExample

open SessionCountersExample in
/-- Two upserts of different chats count before either commits: two active sessions are left with counters of one. -/
theorem session_counters_stale : ¬ ExactWhenQuiescent (ofPartial fun s : SessionSystem Nat Nat => Sessions.step s) := by
  intro h
  have hout : ((upsertUntilCount 0 1 ++ upsertUntilCount 1 2 ++ upsertAfterCount 0 ++ upsertAfterCount 1).foldlM Sessions.step
      Sessions.init).map outcome = some ([.active, .active], some ⟨1, 1⟩, true) := by
    decide
  obtain ⟨s, hs, heq⟩ := Option.map_eq_some_iff.mp hout
  obtain ⟨hstates, hpresence, hnil⟩ : _ = _ ∧ _ = _ ∧ _ = _ := by simpa only [outcome, Prod.mk.injEq] using heq
  have hexact := h _ s (Run.of_foldlM hs) (System.quiescent_of_nil (List.isEmpty_iff.mp hnil))
  have hcount : (countRows s.store.sessions).activeSessions = 2 := by
    have : (countRows s.store.sessions).activeSessions =
        (s.store.sessions.entries.map fun e => e.2.state).countP fun st => decide (st = .active) := by
      rw [List.countP_map]
      rfl
    rw [this, hstates]
    rfl
  have hcounters := congrArg PresenceCounts.activeSessions hexact.counters
  rw [hpresence, hcount] at hcounters
  exact absurd hcounters (by decide)

end FirstTree
