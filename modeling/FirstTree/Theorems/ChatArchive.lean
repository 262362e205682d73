import FirstTree.Lib.AssocList
import FirstTree.Lib.Runs
import FirstTree.Lemmas.ListCursor
import FirstTree.Server.ChatArchive

/-!
# The archive sweep and fresh messages

A row that a sweep has archived belongs to a chat with no message after the sweep's snapshot and no open request, in the runs
where a sweep and the revive of a send do not cross: a send that commits has then revived every row that is archived.
-/

namespace FirstTree

open Runs Transactions ChatArchive

variable {Tx : Type} [DecidableEq Tx]

namespace ChatArchive

/-- A row is archived by a sweep only while no message was committed after the snapshot of the sweep and no request is open. -/
def FreshWorkShown (store : ArchiveStore) : Prop :=
  ∀ agentId row messageCount, store.states.lookup agentId = some row → row.engagementStatus = .archived →
    store.archivedAt.lookup agentId = some messageCount → store.messageCount ≤ messageCount ∧ noOpenRequest store.states = true

/-- Whether a send has run the statement that looks for archived rows. -/
def hasRevived : ArchiveSendStatement → Bool
  | .updateChat | .revive => false
  | _ => true

/-- Whether a transaction is a send that has looked for archived rows. -/
def revivedSend : ArchiveTx → Bool
  | .send t => hasRevived t.next
  | .sweep _ => false

/-- Whether a transaction is a sweep that has archived a row. -/
def archivingSweep : ArchiveTx → Bool
  | .send _ => false
  | .sweep t => !t.states.keys.isEmpty

/-- A step by which a sweep and the revive of a send do not cross: a sweep archives a row only while no message was committed
since its snapshot and no open send has looked for archived rows, and a send looks for them only while no open sweep has archived
one. -/
def crossesNone (s : ArchiveSystem Tx) : ArchiveOp Tx → Bool
  | .run tx =>
    match s.find tx with
    | some (.sweep t) =>
      (t.rows.head?.bind fun agentId => archiveRow (s.store.states.lookup agentId)).isNone ||
        (decide (s.store.messageCount ≤ t.messageCount) && (s.others tx).all fun other => !revivedSend other)
    | some (.send t) =>
      match t.next with
      | .revive => (s.others tx).all fun other => !archivingSweep other
      | _ => true
    | none => true
  | _ => true

end ChatArchive

namespace ChatArchiveAux

/-! ## The invariant -/

/-- What a send past its revive has written, and that every archived row is among these or the rows it still has to revive. -/
structure Reviving (store : ArchiveStore) (states : Rows String ChatUserState) (left : List String) : Prop where
  shown : ∀ agentId row, states.lookup agentId = some row → row.engagementStatus ≠ .archived
  reached : ∀ agentId row, store.states.lookup agentId = some row → row.engagementStatus = .archived →
    agentId ∈ left ∨ (states.lookup agentId).isSome = true

/-- The rows that a send still has to revive. -/
def leftOf : ArchiveSendStatement → List String
  | .reviveRows agentIds => agentIds
  | _ => []

/-- A send: past its revive, every archived row is reached; before it, nothing is written. -/
def SendOk (store : ArchiveStore) (t : ArchiveSendTx) : Prop :=
  if hasRevived t.next = true then Reviving store t.states (leftOf t.next) else t.states = ∅

/-- A sweep: what it has archived has no message after its snapshot, and none of its chat's rows has an open request. -/
structure SweepOk (store : ArchiveStore) (t : SweepTx) : Prop where
  snapshot : t.messageCount ≤ store.messageCount
  found : t.rows ≠ [] → store.messageCount ≤ t.messageCount → noOpenRequest store.states = true
  archived : t.states.keys ≠ [] → store.messageCount ≤ t.messageCount ∧ noOpenRequest store.states = true
  settled : noOpenRequest t.states = true

/-- An open transaction. -/
def TxOk (store : ArchiveStore) : ArchiveTx → Prop
  | .send t => SendOk store t
  | .sweep t => SweepOk store t

/-- A sweep that has archived a row and a send that has looked for archived rows are not open together. -/
def Apart (a b : ArchiveTx) : Prop :=
  (archivingSweep a = true → revivedSend b = false) ∧ (archivingSweep b = true → revivedSend a = false)

/-- The invariant of the runs. -/
abbrev Sound (s : ArchiveSystem Tx) : Prop := Invariant FreshWorkShown TxOk Apart s

theorem apart_symm (a b : ArchiveTx) (h : Apart a b) : Apart b a := ⟨h.2, h.1⟩

/-! ## Open requests -/

theorem noOpenRequest_iff {states : Rows String ChatUserState} :
    noOpenRequest states = true ↔ ∀ agentId row, states.lookup agentId = some row → row.openRequestCount = 0 := by
  rw [noOpenRequest, List.all_eq_true]
  constructor
  · intro h agentId row hrow
    exact of_decide_eq_true (h ⟨agentId, row⟩ (AList.mem_lookup_iff.mp hrow))
  · rintro h ⟨agentId, row⟩ hmem
    exact decide_eq_true (h agentId row (AList.mem_lookup_iff.mpr hmem))

/-- Rows without open requests stay so under rows without open requests. -/
theorem noOpenRequest_union {states states' : Rows String ChatUserState} (h : noOpenRequest states = true)
    (h' : noOpenRequest states' = true) : noOpenRequest (states ∪ states') = true := by
  rw [noOpenRequest_iff] at *
  intro agentId row hrow
  rw [AssocList.lookup_union] at hrow
  rcases Option.or_eq_some_iff.mp hrow with hrow | ⟨_, hrow⟩
  · exact h agentId row hrow
  · exact h' agentId row hrow

/-! ## A send -/

/-- A row that a send comes to is written as shown, or need not be written. -/
theorem Reviving.write {store : ArchiveStore} {t : ArchiveSendTx} {agentId : String} {left : List String}
    (h : Reviving store t.states (agentId :: left)) {row : Option ChatUserState}
    (hshown : ∀ r, row = some r → r.engagementStatus ≠ .archived)
    (hreached : row = none → ∀ r, store.states.lookup agentId = some r → r.engagementStatus = .archived →
      (t.states.lookup agentId).isSome = true) (next : ArchiveSendStatement) :
    Reviving store (writeState t agentId row next).states left := by
  cases row with
  | none =>
    refine ⟨h.shown, fun a r hr harchived => ?_⟩
    rcases h.reached a r hr harchived with hmem | hwritten
    · rcases List.mem_cons.mp hmem with rfl | hleft
      · exact .inr (hreached rfl r hr harchived)
      · exact .inl hleft
    · exact .inr hwritten
  | some row =>
    refine ⟨fun a r hr => ?_, fun a r hr harchived => ?_⟩
    · dsimp only [writeState] at hr
      rw [AssocList.lookup_insert_ite] at hr
      split at hr
      · exact hshown r hr
      · exact h.shown a r hr
    · dsimp only [writeState]
      rw [AssocList.lookup_insert_ite]
      by_cases ha : a = agentId
      · exact .inr (by rw [if_pos ha]; rfl)
      · rw [if_neg ha]
        exact (h.reached a r hr harchived).imp_left fun hmem => (List.mem_cons.mp hmem).resolve_left ha

/-- Rows that are left may be taken for more. -/
theorem Reviving.mono {store : ArchiveStore} {states : Rows String ChatUserState} {left left' : List String}
    (h : Reviving store states left) (hsub : left ⊆ left') : Reviving store states left' :=
  ⟨h.shown, fun agentId row hrow harchived => (h.reached agentId row hrow harchived).imp_left fun hmem => hsub hmem⟩

/-- Once no row is left, no row is seen as archived. -/
theorem Reviving.visible {store : ArchiveStore} {t : ArchiveSendTx} (h : Reviving store t.states []) {agentId : String}
    {row : ChatUserState} (hrow : visibleState store t agentId = some row) : row.engagementStatus ≠ .archived := by
  rcases Option.or_eq_some_iff.mp hrow with hrow | ⟨hnone, hrow⟩
  · exact h.shown agentId row hrow
  · intro harchived
    rcases h.reached agentId row hrow harchived with hmem | hwritten
    · exact List.not_mem_nil hmem
    · rw [hnone] at hwritten
      cases hwritten

/-- A row that was visible is not archived after a change of its counters, nor is one that is inserted. -/
theorem Reviving.counted {store : ArchiveStore} {t : ArchiveSendTx} (h : Reviving store t.states []) (agentId : String) :
    ((visibleState store t agentId).getD emptyState).engagementStatus ≠ .archived := by
  cases hrow : visibleState store t agentId with
  | none => nofun
  | some row => exact h.visible hrow

/-- A step of a send keeps its part of the invariant. -/
theorem sendOk_run {s : ArchiveSystem Tx} {tx : Tx} {t t' : ArchiveSendTx} (h : SendOk s.store t) (hrun : runSend s tx t = some t') :
    SendOk s.store t' := by
  unfold runSend at hrun
  unfold SendOk at h
  split at hrun
  · next hnext =>
    split at hrun
    · obtain rfl := Option.some.inj hrun
      rw [hnext] at h
      exact h
    · cases hrun
  · next hnext =>
    obtain rfl := Option.some.inj hrun
    rw [hnext] at h
    have hempty : t.states = ∅ := h
    refine ⟨fun agentId row hrow => ?_, fun agentId row hrow harchived => .inl ?_⟩
    · rw [hempty] at hrow
      cases hrow
    · refine List.mem_map.mpr ⟨⟨agentId, row⟩, List.mem_filter.mpr ⟨AList.mem_lookup_iff.mp hrow, ?_⟩, rfl⟩
      exact decide_eq_true harchived
  · next agentId agentIds hnext =>
    split at hrun
    · obtain rfl := Option.some.inj hrun
      rw [hnext] at h
      have hreviving : Reviving s.store t.states (agentId :: agentIds) := h
      refine hreviving.write (fun r hr => ?_) (fun hnone r hr harchived => ?_) _
      · obtain ⟨row, _, hrevive⟩ := Option.bind_eq_some_iff.mp hr
        unfold reviveRow at hrevive
        split at hrevive
        · obtain rfl := Option.some.inj hrevive
          nofun
        · cases hrevive
      · cases hwritten : t.states.lookup agentId with
        | some row => rfl
        | none =>
          rw [visibleState, hwritten, Option.none_or, hr, Option.bind_some, reviveRow, if_pos harchived] at hnone
          cases hnone
    · cases hrun
  · next hnext =>
    obtain rfl := Option.some.inj hrun
    rw [hnext] at h
    exact h
  · next agentId agentIds hnext =>
    split at hrun
    · obtain rfl := Option.some.inj hrun
      rw [hnext] at h
      have hreviving : Reviving s.store t.states [] := h
      refine (hreviving.mono (List.nil_subset [agentId])).write (fun r hr => ?_) (fun hnone => absurd hnone (Option.some_ne_none _)) _
      obtain rfl := Option.some.inj hr
      exact hreviving.counted agentId
    · cases hrun
  · next hnext =>
    obtain rfl := Option.some.inj hrun
    rw [hnext] at h
    exact h
  · next hnext =>
    rw [hnext] at h
    have hreviving : Reviving s.store t.states [] := h
    split at hrun
    · obtain rfl := Option.some.inj hrun
      exact hreviving
    · next agentId _ =>
      split at hrun
      · obtain rfl := Option.some.inj hrun
        refine (hreviving.mono (List.nil_subset [agentId])).write (fun r hr => ?_)
          (fun hnone => absurd hnone (Option.some_ne_none _)) _
        obtain rfl := Option.some.inj hr
        exact hreviving.counted agentId
      · cases hrun
  · next hnext =>
    rw [hnext] at h
    have hreviving : Reviving s.store t.states [] := h
    split at hrun
    · obtain rfl := Option.some.inj hrun
      exact hreviving
    · next agentId _ =>
      split at hrun
      · obtain rfl := Option.some.inj hrun
        refine (hreviving.mono (List.nil_subset [agentId])).write (fun r hr => ?_) (fun hnone r hr harchived => ?_) _
        · obtain ⟨row, hrow, rfl⟩ := Option.map_eq_some_iff.mp hr
          have hshown := hreviving.visible hrow
          exact hshown
        · exact ((hreviving.reached agentId r hr harchived).resolve_left List.not_mem_nil)
      · cases hrun
  · cases hrun

/-- A send comes past its revive by the statement that looks for archived rows. -/
theorem hasRevived_run {s : ArchiveSystem Tx} {tx : Tx} {t t' : ArchiveSendTx} (hrun : runSend s tx t = some t')
    (h : hasRevived t'.next = true) : hasRevived t.next = true ∨ t.next = .revive := by
  unfold runSend at hrun
  split at hrun
  · split at hrun
    · obtain rfl := Option.some.inj hrun
      cases h
    · cases hrun
  · next hnext => exact .inr hnext
  all_goals next hnext => exact .inl (by rw [hnext]; rfl)

/-! ## A sweep -/

/-- What a sweep makes of a row keeps the open requests of the row. -/
theorem openRequestCount_archiveRow {states : Rows String ChatUserState} (h : noOpenRequest states = true) {agentId : String}
    {row : ChatUserState} (hrow : archiveRow (states.lookup agentId) = some row) : row.openRequestCount = 0 := by
  cases hold : states.lookup agentId with
  | none =>
    rw [hold] at hrow
    obtain rfl := Option.some.inj hrow
    rfl
  | some old =>
    rw [hold, archiveRow] at hrow
    split at hrow
    · obtain rfl := Option.some.inj hrow
      exact noOpenRequest_iff.mp h agentId old hold
    · cases hrow

/-- A step of a sweep keeps its part of the invariant, when it archives a row only while no message was committed since its
snapshot. -/
theorem sweepOk_run {s : ArchiveSystem Tx} {tx : Tx} {t t' : SweepTx} (h : SweepOk s.store t) (hrun : runSweep s tx t = some t')
    (hguard : (t.rows.head?.bind fun agentId => archiveRow (s.store.states.lookup agentId)) = none ∨
      s.store.messageCount ≤ t.messageCount) : SweepOk s.store t' := by
  unfold runSweep at hrun
  split at hrun
  · next agentId rows hrows =>
    split at hrun
    · obtain rfl := Option.some.inj hrun
      have hne : t.rows ≠ [] := by
        rw [hrows]
        exact List.cons_ne_nil _ _
      rw [hrows, List.head?_cons, Option.bind_some] at hguard
      cases hrow : archiveRow (s.store.states.lookup agentId) with
      | none => exact ⟨h.snapshot, fun _ => h.found hne, h.archived, h.settled⟩
      | some row =>
        rw [hrow] at hguard
        have hcount := hguard.resolve_left nofun
        have hopen := h.found hne hcount
        refine ⟨h.snapshot, fun _ => h.found hne, fun _ => ⟨hcount, hopen⟩, noOpenRequest_iff.mpr fun a r hr => ?_⟩
        dsimp only at hr
        rw [AssocList.lookup_insert_ite] at hr
        split at hr
        · obtain rfl := Option.some.inj hr
          exact openRequestCount_archiveRow hopen hrow
        · exact noOpenRequest_iff.mp h.settled a r hr
    · cases hrun
  · cases hrun

/-- A sweep that has archived a row had done so before its last step, or that step did. -/
theorem archiving_run {s : ArchiveSystem Tx} {tx : Tx} {t t' : SweepTx} (hrun : runSweep s tx t = some t')
    (h : archivingSweep (.sweep t') = true) : archivingSweep (.sweep t) = true ∨
      (t.rows.head?.bind fun agentId => archiveRow (s.store.states.lookup agentId)) ≠ none := by
  unfold runSweep at hrun
  split at hrun
  · next agentId rows hrows =>
    split at hrun
    · obtain rfl := Option.some.inj hrun
      rw [hrows, List.head?_cons, Option.bind_some]
      cases hrow : archiveRow (s.store.states.lookup agentId) with
      | none =>
        rw [hrow] at h
        exact .inl h
      | some row => exact .inr nofun
    · cases hrun
  · cases hrun

/-! ## Commits -/

/-- A send that commits leaves no row archived. -/
theorem shown_of_done {store : ArchiveStore} {t : ArchiveSendTx} (h : Reviving store t.states []) {agentId : String}
    {row : ChatUserState} (hrow : (t.states ∪ store.states).lookup agentId = some row) : row.engagementStatus ≠ .archived :=
  h.visible ((AssocList.lookup_union _ _ _).symm.trans hrow)

theorem archiving_of_keys {t : SweepTx} (h : t.states.keys ≠ []) : archivingSweep (.sweep t) = true := by
  rw [archivingSweep, Bool.not_eq_true', List.isEmpty_eq_false_iff]
  exact h

/-- A send's part of the invariant holds where no row is archived. -/
theorem SendOk.of_shown {store store' : ArchiveStore} {t : ArchiveSendTx} (h : SendOk store t)
    (hshown : ∀ agentId row, store'.states.lookup agentId = some row → row.engagementStatus ≠ .archived) : SendOk store' t := by
  unfold SendOk at h ⊢
  split at h
  · next hrevived =>
    rw [if_pos hrevived]
    exact ⟨h.shown, fun agentId row hrow harchived => absurd harchived (hshown agentId row hrow)⟩
  · next hnot =>
    rw [if_neg hnot]
    exact h

/-- A sweep that commits leaves a send past its revive as it is, when it has archived no row. -/
theorem SendOk.sweep {store store' : ArchiveStore} {t : ArchiveSendTx} {sweep : SweepTx} (h : SendOk store t)
    (hapart : archivingSweep (.sweep sweep) = true → revivedSend (.send t) = false)
    (hstates : store'.states = sweep.states ∪ store.states) : SendOk store' t := by
  unfold SendOk at h ⊢
  split at h
  · next hrevived =>
    rw [if_pos hrevived]
    have hkeys : sweep.states.keys = [] := by
      by_contra hne
      have hnot := hapart (archiving_of_keys hne)
      rw [revivedSend, hrevived] at hnot
      cases hnot
    have hsame : ∀ agentId, store'.states.lookup agentId = store.states.lookup agentId := by
      intro agentId
      have hnone : sweep.states.lookup agentId = none := by
        rw [AList.lookup_eq_none, AList.mem_keys, hkeys]
        exact List.not_mem_nil
      rw [hstates, AssocList.lookup_union, hnone, Option.none_or]
    exact ⟨h.shown, fun agentId row hrow => h.reached agentId row ((hsame agentId).symm.trans hrow)⟩
  · next hnot =>
    rw [if_neg hnot]
    exact h

/-- A sweep finds rows in a chat without open requests. -/
theorem noOpenRequest_of_found {branch : SweepBranch} {reads : SweepReads} {store : ArchiveStore} {rows : List String}
    (hsub : rows ⊆ archivableRows branch reads store) (hne : rows ≠ []) : noOpenRequest store.states = true := by
  have hopen : chatEligible reads store = true → noOpenRequest store.states = true := by
    intro h
    simp only [chatEligible, Bool.and_eq_true] at h
    exact h.1.2
  obtain ⟨agentId, hmem⟩ := List.exists_mem_of_ne_nil rows hne
  have hfound := hsub hmem
  cases branch with
  | mapped =>
    dsimp only [archivableRows, mappedRows] at hfound
    split at hfound
    · next h => exact hopen (Bool.and_eq_true_iff.mp h).1
    · exact absurd hfound List.not_mem_nil
  | unmapped =>
    dsimp only [archivableRows, unmappedRows] at hfound
    split at hfound
    · next h => exact hopen (Bool.and_eq_true_iff.mp (Bool.and_eq_true_iff.mp h).1).1
    · exact absurd hfound List.not_mem_nil

/-- A sweep that commits hides no fresh work. -/
theorem freshWorkShown_sweep {store : ArchiveStore} {t : SweepTx} (hs : FreshWorkShown store) (ht : SweepOk store t) :
    FreshWorkShown { store with
      states := t.states ∪ store.states
      archivedAt := t.states.keys.foldl (fun archivedAt agentId => archivedAt.insert agentId t.messageCount) store.archivedAt } := by
  intro agentId row messageCount hrow harchived hcount
  dsimp only at hrow hcount ⊢
  rw [AssocList.lookup_foldl_insert] at hcount
  split at hcount
  · next hmem =>
    obtain rfl := Option.some.inj hcount
    obtain ⟨hle, hopen⟩ := ht.archived (List.ne_nil_of_mem hmem)
    exact ⟨hle, noOpenRequest_union ht.settled hopen⟩
  · next hnot =>
    rw [AssocList.lookup_union, AList.lookup_eq_none.mpr (fun hmem => hnot (AList.mem_keys.mp hmem)), Option.none_or] at hrow
    obtain ⟨hle, hopen⟩ := hs agentId row messageCount hrow harchived hcount
    exact ⟨hle, noOpenRequest_union ht.settled hopen⟩

/-! ## Steps -/

/-- Every step by which a sweep and a revive do not cross keeps the invariant. -/
theorem sound_step {s s' : ArchiveSystem Tx} {op : ArchiveOp Tx} (hs : Sound s) (hguard : crossesNone s op = true)
    (hstep : step s op = some s') : Sound s' := by
  have hapart : ∀ {tx t}, s.find tx = some t → ∀ other ∈ s.others tx, Apart t other := by
    intro tx t hfind other hother
    obtain ⟨k, hne, hk⟩ := System.mem_others.mp hother
    exact hs.apart tx k t other (Ne.symm hne) hfind hk
  cases op with
  | sendMessage tx call =>
    simp only [step] at hstep
    split at hstep
    · obtain rfl := Option.some.inj hstep
      refine hs.put apart_symm hs.store ?_ (fun _ _ ho => ho) ?_
      · rintro _ ⟨⟩
        exact rfl
      · rintro _ ⟨⟩ other _
        exact ⟨fun h => absurd h Bool.false_ne_true, fun _ => rfl⟩
    · cases hstep
  | sweep tx branch reads rows =>
    simp only [step] at hstep
    split at hstep
    · next hbegin =>
      obtain rfl := Option.some.inj hstep
      refine hs.put apart_symm hs.store ?_ (fun _ _ ho => ho) ?_
      · rintro _ ⟨⟩
        exact ⟨Nat.le_refl _, fun hne _ => noOpenRequest_of_found hbegin.2.2.1 hne, fun hne => absurd rfl hne, rfl⟩
      · rintro _ ⟨⟩ other _
        exact ⟨fun h => absurd h Bool.false_ne_true, fun _ => rfl⟩
    · cases hstep
  | run tx =>
    obtain ⟨t, hfind, hnext⟩ := Option.bind_eq_some_iff.mp hstep
    rw [crossesNone, hfind] at hguard
    cases t with
    | send t =>
      obtain ⟨t', hrun, rfl⟩ := Option.map_eq_some_iff.mp hnext
      refine hs.put apart_symm hs.store ?_ (fun _ _ ho => ho) ?_
      · rintro _ ⟨⟩
        exact sendOk_run (hs.own tx _ hfind) hrun
      · rintro _ ⟨⟩ other hother
        refine ⟨fun h => absurd h Bool.false_ne_true, fun harchiving => ?_⟩
        rw [revivedSend, ← Bool.not_eq_true]
        intro hrevived
        rcases hasRevived_run hrun hrevived with hold | hrevive
        · exact absurd ((hapart hfind other hother).2 harchiving) (by rw [revivedSend, hold]; decide)
        · dsimp only at hguard
          rw [hrevive] at hguard
          have hnot := List.all_eq_true.mp hguard other hother
          rw [harchiving] at hnot
          cases hnot
    | sweep t =>
      obtain ⟨t', hrun, rfl⟩ := Option.map_eq_some_iff.mp hnext
      dsimp only at hguard
      rw [Bool.or_eq_true, Bool.and_eq_true, Option.isNone_iff_eq_none, decide_eq_true_eq] at hguard
      refine hs.put apart_symm hs.store ?_ (fun _ _ ho => ho) ?_
      · rintro _ ⟨⟩
        exact sweepOk_run (hs.own tx _ hfind) hrun (hguard.imp_right And.left)
      · rintro _ ⟨⟩ other hother
        refine ⟨fun harchiving => ?_, fun _ => rfl⟩
        rcases archiving_run hrun harchiving with hold | harchives
        · exact (hapart hfind other hother).1 hold
        · have hnot := List.all_eq_true.mp (hguard.resolve_left harchives).2 other hother
          rwa [Bool.not_eq_true'] at hnot
  | commit tx =>
    obtain ⟨t, hfind, hput⟩ := Option.bind_eq_some_iff.mp hstep
    obtain ⟨store, hcommit, rfl⟩ := Option.map_eq_some_iff.mp hput
    have hthis := hs.own tx _ hfind
    cases t with
    | send t =>
      dsimp only [commitTx] at hcommit
      split at hcommit
      · next hnext =>
        obtain rfl := Option.some.inj hcommit
        rw [TxOk, SendOk, hnext] at hthis
        have hreviving : Reviving s.store t.states [] := hthis
        refine hs.put apart_symm (fun agentId row _ hrow harchived => absurd harchived (shown_of_done hreviving hrow)) (by simp)
          (fun other hother ho => ?_) (by simp)
        cases other with
        | send other => exact ho.of_shown fun agentId row hrow => shown_of_done hreviving hrow
        | sweep other =>
          have hnone : other.states.keys = [] := by
            by_contra hne
            have hrevived := (hapart hfind _ hother).2 (archiving_of_keys hne)
            rw [revivedSend, hnext] at hrevived
            cases hrevived
          have hsnapshot := ho.snapshot
          refine ⟨Nat.le_succ_of_le hsnapshot, fun _ hle => ?_, fun hne => absurd hnone hne, ho.settled⟩
          dsimp only at hle
          omega
      · cases hcommit
    | sweep t =>
      dsimp only [commitTx] at hcommit
      split at hcommit
      · obtain rfl := Option.some.inj hcommit
        refine hs.put apart_symm (freshWorkShown_sweep hs.store hthis) (by simp) (fun other hother ho => ?_) (by simp)
        cases other with
        | send other => exact ho.sweep (hapart hfind _ hother).1 rfl
        | sweep other =>
          exact ⟨ho.snapshot, fun hne hle => noOpenRequest_union hthis.settled (ho.found hne hle),
            fun hne => ⟨(ho.archived hne).1, noOpenRequest_union hthis.settled (ho.archived hne).2⟩, ho.settled⟩
      · cases hcommit
  | rollback tx =>
    obtain ⟨t, _, rfl⟩ := Option.map_eq_some_iff.mp hstep
    exact hs.put apart_symm hs.store (by simp) (fun _ _ ho => ho) (by simp)

end ChatArchiveAux

open ChatArchiveAux

/-- From a chat whose fresh work is shown, a run in which no sweep and revive cross archives no row of a chat with a later message
or an open request. -/
theorem archive_sweeps_show_fresh_work {store : ArchiveStore} (hstart : FreshWorkShown store) {ops : List (ArchiveOp Tx)}
    {s : ArchiveSystem Tx}
    (h : Run (Guarded (fun s op => crossesNone s op = true) (ofPartial ChatArchive.step)) (System.idle store) ops s) :
    FreshWorkShown s.store := by
  have hs : Sound s := h.invariant (fun _ _ _ hs hstep => sound_step hs hstep.1 hstep.2) (Invariant.idle hstart)
  exact hs.store

namespace ChatArchiveExample

open ListCursorAux

/-- A chat from GitHub without mappings, which one human has read. -/
def chat : ArchiveStore where
  lastMessageAt := some epoch
  states := (∅ : Rows String ChatUserState).insert "h" ⟨.active, 0, 0, some epoch⟩
  messageCount := 1
  archivedAt := ∅

/-- What a sweep reads of it two hours later. -/
def reads : SweepReads :=
  { source := some "github", parentChatId := none, githubMappings := [], gitlabMappings := [], memberHumans := ["h"], running := false
    now := 7200000000, idleMicros := 3600000000, batchSize := 1000 }

/-- A message that mentions no one. -/
def send : ArchiveSend :=
  { message :=
      { senderId := "a", senderType := "agent", mergedMentions := [], previewText := [], createdAt := epoch
        isAgentFinalText := false, tables := { memberships := [], agents := [], members := [] } }
    opensFor := none, resolvesFor := none }

/-- A send from its begin to its commit, by the number of its steps. -/
def sends (tx steps : Nat) : List (ArchiveOp Nat) :=
  [ArchiveOp.sendMessage tx send] ++ List.replicate steps (ArchiveOp.run tx) ++ [ArchiveOp.commit tx]

/-- The sweep takes its snapshot, the message is sent, and the sweep writes its row. -/
def crossed : List (ArchiveOp Nat) :=
  [ArchiveOp.sweep 0 .unmapped reads ["h"]] ++ sends 1 6 ++ [ArchiveOp.run 0, ArchiveOp.commit 0]

/-- The sweep archives the row, and the message is sent. -/
def inTurn : List (ArchiveOp Nat) :=
  [ArchiveOp.sweep 0 .unmapped reads ["h"], ArchiveOp.run 0, ArchiveOp.commit 0] ++ sends 1 7

theorem freshWorkShown_chat : FreshWorkShown chat := by
  intro agentId row messageCount _ _ hcount
  cases hcount

/-- What a run leaves: the human's row, the number of messages and of those the sweep saw, and whether all is committed. -/
structure Outcome where
  row : Option ChatUserState
  messageCount : Nat
  archivedAt : Option Nat
  committed : Bool
  deriving DecidableEq

/-- The outcome of a run. -/
def outcome (s : ArchiveSystem Nat) : Outcome :=
  ⟨s.store.states.lookup "h", s.store.messageCount, s.store.archivedAt.lookup "h", s.active.entries.isEmpty⟩

/-- A message after the sweep revives the row. -/
theorem archive_sweeps_show_fresh_work_in_turn : ∃ s : ArchiveSystem Nat,
    outcome s = ⟨some ⟨.active, 0, 0, some epoch⟩, 2, some 1, true⟩ ∧ FreshWorkShown s.store := by
  have hout : (inTurn.foldlM (fun s op => if crossesNone s op = true then ChatArchive.step s op else none) (System.idle chat)).map
      outcome = some ⟨some ⟨.active, 0, 0, some epoch⟩, 2, some 1, true⟩ := by
    decide
  obtain ⟨s, hs, houtcome⟩ := Option.map_eq_some_iff.mp hout
  exact ⟨s, houtcome, archive_sweeps_show_fresh_work freshWorkShown_chat (Run.guarded_of_foldlM hs)⟩

/-- What was to hold of every run: no row is left archived over a later message or an open request when no transaction is open. -/
def NoSweepHides : Prop :=
  ∀ (store : ArchiveStore) (ops : List (ArchiveOp Nat)) (s : ArchiveSystem Nat), FreshWorkShown store →
    Run (ofPartial ChatArchive.step) (System.idle store) ops s → s.Quiescent → FreshWorkShown s.store

/-- A message that is committed between the snapshot of a sweep and its write leaves the row archived. -/
theorem no_sweep_hides_false : ¬ NoSweepHides := by
  intro h
  have hout : (crossed.foldlM ChatArchive.step (System.idle chat)).map outcome =
      some ⟨some ⟨.archived, 0, 0, some epoch⟩, 2, some 1, true⟩ := by
    decide
  obtain ⟨s, hs, heq⟩ := Option.map_eq_some_iff.mp hout
  simp only [outcome, Outcome.mk.injEq] at heq
  obtain ⟨hrow, hmessages, hseen, hcommitted⟩ := heq
  have hshown := h chat crossed s freshWorkShown_chat (Run.of_foldlM hs) (System.quiescent_of_nil (List.isEmpty_iff.mp hcommitted))
    "h" _ 1 hrow rfl hseen
  rw [hmessages] at hshown
  exact absurd hshown.1 (by decide)

end ChatArchiveExample

end FirstTree
