import FirstTree.Client.InboxDeliveryCoordinator

/-!
# What the coordinator does to its ledgers

Apart from a frame that is inserted, an ACK that is sent and an ACK that is confirmed, everything the coordinator does to a ledger
is of one kind: entries leave, and those that stay keep their identity and never leave the terminal phase. A message that is marked
settled stays marked. `Advances` says so, this file proves it of each operation, and `step_cases` says it of every step.
-/

namespace FirstTree

namespace TrackedDelivery

variable {Key Payload : Type}

/-- A terminal entry owes no notice. -/
def NoticeSettled (e : TrackedDelivery Key Payload) : Prop :=
  e.phase = .terminal → e.requiresDurableNotice = false

/-- One entry, earlier and later. -/
structure Advances (e e' : TrackedDelivery Key Payload) : Prop where
  uid : e'.uid = e.uid
  entryId : e'.entryId = e.entryId
  messageId : e'.messageId = e.messageId
  terminal : e.phase = .terminal → e'.phase = .terminal
  notice : e.NoticeSettled → e'.NoticeSettled

theorem Advances.refl (e : TrackedDelivery Key Payload) : e.Advances e :=
  ⟨rfl, rfl, rfl, id, id⟩

theorem Advances.trans {e e' e'' : TrackedDelivery Key Payload} (h : e.Advances e') (h' : e'.Advances e'') : e.Advances e'' :=
  ⟨h'.uid.trans h.uid, h'.entryId.trans h.entryId, h'.messageId.trans h.messageId, fun ht => h'.terminal (h.terminal ht),
    fun hn => h'.notice (h.notice hn)⟩

/-- An update that leaves the identity, the phase and the notice alone. -/
theorem Advances.of_same {e e' : TrackedDelivery Key Payload} (hu : e'.uid = e.uid) (hi : e'.entryId = e.entryId)
    (hm : e'.messageId = e.messageId) (hp : e'.phase = e.phase) (hn : e'.requiresDurableNotice = e.requiresDurableNotice) :
    e.Advances e' := by
  refine ⟨hu, hi, hm, fun ht => hp.trans ht, ?_⟩
  intro hs ht
  rw [hn]
  exact hs (hp.symm.trans ht)

end TrackedDelivery

/-- The entries of a ledger, earlier and later, when none came in. -/
structure EntriesAdvance {Key Payload : Type} (es es' : List (TrackedDelivery Key Payload)) : Prop where
  from_old : ∀ e' ∈ es', ∃ e ∈ es, e.Advances e'
  uids : (es'.map (·.uid)).Sublist (es.map (·.uid))
  entryIds : (es'.map (·.entryId)).Sublist (es.map (·.entryId))

namespace EntriesAdvance

variable {Key Payload : Type} {es es' es'' : List (TrackedDelivery Key Payload)}

theorem refl (es : List (TrackedDelivery Key Payload)) : EntriesAdvance es es :=
  ⟨fun e he => ⟨e, he, .refl e⟩, .refl _, .refl _⟩

theorem trans (h : EntriesAdvance es es') (h' : EntriesAdvance es' es'') : EntriesAdvance es es'' := by
  refine ⟨?_, h'.uids.trans h.uids, h'.entryIds.trans h.entryIds⟩
  intro e'' he''
  obtain ⟨e', he', h2⟩ := h'.from_old e'' he''
  obtain ⟨e, he, h1⟩ := h.from_old e' he'
  exact ⟨e, he, h1.trans h2⟩

/-- Entries that leave. -/
theorem of_sublist (h : es'.Sublist es) : EntriesAdvance es es' :=
  ⟨fun e he => ⟨e, h.subset he, .refl e⟩, h.map _, h.map _⟩

/-- Entries that are each updated in place. -/
theorem of_map {f : TrackedDelivery Key Payload → TrackedDelivery Key Payload} (h : ∀ e ∈ es, e.Advances (f e)) :
    EntriesAdvance es (es.map f) := by
  have hu : (es.map f).map (·.uid) = es.map (·.uid) := by
    rw [List.map_map]
    exact List.map_congr_left fun e he => (h e he).uid
  have hi : (es.map f).map (·.entryId) = es.map (·.entryId) := by
    rw [List.map_map]
    exact List.map_congr_left fun e he => (h e he).entryId
  refine ⟨?_, by rw [hu], by rw [hi]⟩
  intro e' he'
  obtain ⟨e, he, rfl⟩ := List.mem_map.mp he'
  exact ⟨e, he, h e he⟩

theorem cons {e e' : TrackedDelivery Key Payload} (he : e.Advances e') (h : EntriesAdvance es es') :
    EntriesAdvance (e :: es) (e' :: es') := by
  refine ⟨?_, ?_, ?_⟩
  · intro x hx
    rcases List.mem_cons.mp hx with rfl | hx
    · exact ⟨e, List.mem_cons_self, he⟩
    · obtain ⟨y, hy, hyx⟩ := h.from_old x hx
      exact ⟨y, List.mem_cons_of_mem _ hy, hyx⟩
  · rw [List.map_cons, List.map_cons, he.uid]
    exact h.uids.cons_cons _
  · rw [List.map_cons, List.map_cons, he.entryId]
    exact h.entryIds.cons_cons _

end EntriesAdvance

/-- An ACK that is not sent yet, or is blocked. -/
def AckJob.NotSending {Key Payload : Type} (job : AckJob Key Payload) : Prop :=
  ∀ pre, job.stage ≠ .sending pre

namespace InboxDeliveryCoordinator

variable {Key Payload : Type} [DecidableEq Key]

/-- Every ACK in a list checks its prefix before it is sent. -/
def Gated (jobs : List (AckJob Key Payload)) : Prop :=
  ∀ job ∈ jobs, job.requireTerminalPrefix = true

/-- The coordinator, earlier and later, when nothing was inserted, sent or confirmed. -/
structure Advances (s s' : InboxDeliveryCoordinator Key Payload) : Prop where
  entries : ∀ chatId, EntriesAdvance (s.entriesOf chatId) (s'.entriesOf chatId)
  jobs : ∀ chatId, ∀ job ∈ s'.pendingAcks chatId,
    job ∈ s.pendingAcks chatId ∨ job.NotSending ∧ (Gated (s.pendingAcks chatId) → job.requireTerminalPrefix = true)
  nextUid : s.nextUid ≤ s'.nextUid
  markers : ∀ chatId, s.fenceSettledMessages chatId ⊆ s'.fenceSettledMessages chatId
  confirmedAcks : s'.confirmedAcks = s.confirmedAcks

namespace Advances

variable {s s' s'' : InboxDeliveryCoordinator Key Payload}

omit [DecidableEq Key] in
/-- The gate of the chain is kept. -/
theorem gated (h : s.Advances s') {chatId : Key} (hg : Gated (s.pendingAcks chatId)) : Gated (s'.pendingAcks chatId) := by
  intro job hj
  rcases h.jobs chatId job hj with hold | ⟨_, hreq⟩
  · exact hg job hold
  · exact hreq hg

omit [DecidableEq Key] in
theorem trans (h : s.Advances s') (h' : s'.Advances s'') : s.Advances s'' := by
  refine ⟨fun c => (h.entries c).trans (h'.entries c), ?_, h.nextUid.trans h'.nextUid,
    fun c => (h.markers c).trans (h'.markers c), h'.confirmedAcks.trans h.confirmedAcks⟩
  intro c job hj
  rcases h'.jobs c job hj with hold | ⟨hns, hreq⟩
  · exact h.jobs c job hold
  · exact Or.inr ⟨hns, fun hg => hreq (h.gated hg)⟩

omit [DecidableEq Key] in
/-- A step that leaves the ledgers, the chains and the markers alone. -/
theorem of_frame (hl : s'.ledgers = s.ledgers) (hp : s'.pendingAcks = s.pendingAcks) (hn : s.nextUid ≤ s'.nextUid)
    (hm : s'.fenceSettledMessages = s.fenceSettledMessages) (ha : s'.confirmedAcks = s.confirmedAcks) : s.Advances s' := by
  refine ⟨fun c => ?_, fun c job hj => ?_, hn, fun c => by rw [hm], ha⟩
  · rw [entriesOf, entriesOf, hl]
    exact .refl _
  · rw [hp] at hj
    exact Or.inl hj

omit [DecidableEq Key] in
theorem refl (s : InboxDeliveryCoordinator Key Payload) : s.Advances s :=
  of_frame rfl rfl (Nat.le_refl _) rfl rfl

end Advances

/-! ## Ledgers -/

omit [DecidableEq Key] in
theorem sortEntries_perm (es : List (TrackedDelivery Key Payload)) : (sortEntries es).Perm es :=
  List.perm_insertionSort _ es

omit [DecidableEq Key] in
/-- Entries with distinct entry ids come out in increasing order. -/
theorem sortEntries_sorted {es : List (TrackedDelivery Key Payload)} (h : (es.map (·.entryId)).Nodup) :
    ((sortEntries es).map (·.entryId)).Pairwise (· < ·) := by
  have hmap : (sortEntries es).map (·.entryId) = (es.map (·.entryId)).insertionSort (· ≤ ·) :=
    List.map_insertionSort _ _ _ _ fun _ _ _ _ => Iff.rfl
  have hle : ((es.map (·.entryId)).insertionSort (· ≤ ·)).Pairwise (· ≤ ·) := List.sortedLE_insertionSort.pairwise
  have hne : ((sortEntries es).map (·.entryId)).Nodup := ((sortEntries_perm es).map _).nodup_iff.mpr h
  rw [hmap] at hne ⊢
  exact (hle.and hne).imp fun hab => Nat.lt_of_le_of_ne hab.1 hab.2

omit [DecidableEq Key] in
theorem ledger_entries (s : InboxDeliveryCoordinator Key Payload) (chatId : Key) :
    (s.ledger chatId).entries = s.entriesOf chatId := by
  unfold ledger entriesOf
  cases s.ledgers chatId <;> rfl

omit [DecidableEq Key] in
theorem entriesOf_some {s : InboxDeliveryCoordinator Key Payload} {chatId : Key} {l : ChatInboxLedger Key Payload}
    (h : s.ledgers chatId = some l) : s.entriesOf chatId = l.entries := by
  rw [entriesOf, h]
  rfl

omit [DecidableEq Key] in
theorem entriesOf_none {s : InboxDeliveryCoordinator Key Payload} {chatId : Key} (h : s.ledgers chatId = none) :
    s.entriesOf chatId = [] := by
  rw [entriesOf, h]
  rfl

theorem entriesOf_setLedger (s : InboxDeliveryCoordinator Key Payload) (chatId : Key) (l : ChatInboxLedger Key Payload) (c : Key) :
    (s.setLedger chatId l).entriesOf c = if c = chatId then l.entries else s.entriesOf c := by
  unfold setLedger entriesOf
  by_cases h : c = chatId
  · subst h
    simp
  · simp [h]

/-- A ledger put back with entries that advanced. -/
theorem advances_setLedger {s : InboxDeliveryCoordinator Key Payload} {chatId : Key} {l : ChatInboxLedger Key Payload}
    (h : EntriesAdvance (s.entriesOf chatId) l.entries) : s.Advances (s.setLedger chatId l) := by
  refine ⟨fun c => ?_, fun c job hj => Or.inl hj, Nat.le_refl _, fun c => Finset.Subset.refl _, rfl⟩
  rw [entriesOf_setLedger]
  split
  · subst_vars
    exact h
  · exact .refl _

/-- A ledger put back with the entries it had. -/
theorem advances_setLedger_same {s : InboxDeliveryCoordinator Key Payload} {chatId : Key} {l : ChatInboxLedger Key Payload}
    (h : l.entries = s.entriesOf chatId) : s.Advances (s.setLedger chatId l) :=
  advances_setLedger (h ▸ .refl _)

theorem advances_updateEntries {s : InboxDeliveryCoordinator Key Payload} {chatId : Key}
    {f : List (TrackedDelivery Key Payload) → List (TrackedDelivery Key Payload)}
    (h : EntriesAdvance (s.entriesOf chatId) (f (s.entriesOf chatId))) : s.Advances (s.updateEntries chatId f) := by
  unfold updateEntries
  split
  · exact .refl s
  · rename_i l hl
    rw [entriesOf_some hl] at h
    refine advances_setLedger ?_
    rw [entriesOf_some hl]
    exact h

/-- Every entry of a ledger updated in place. -/
theorem advances_mapEntries {s : InboxDeliveryCoordinator Key Payload} {chatId : Key}
    {f : TrackedDelivery Key Payload → TrackedDelivery Key Payload} (h : ∀ e ∈ s.entriesOf chatId, e.Advances (f e)) :
    s.Advances (s.updateEntries chatId (List.map f)) :=
  advances_updateEntries (.of_map h)

omit [DecidableEq Key] in
theorem closeWindow_entries (l : ChatInboxLedger Key Payload) : l.closeWindow.entries = l.entries := by
  unfold ChatInboxLedger.closeWindow
  split <;> rfl

/-- Only a ledger without entries is deleted. -/
theorem entriesOf_cleanupLedger (s : InboxDeliveryCoordinator Key Payload) (chatId c : Key) :
    (s.cleanupLedger chatId).entriesOf c = s.entriesOf c := by
  unfold cleanupLedger
  split
  · rfl
  · rename_i l hl
    split
    · rename_i hd
      by_cases h : c = chatId
      · subst h
        have he : l.entries = [] := by
          rw [← closeWindow_entries]
          exact hd.1
        rw [entriesOf_some hl, he]
        simp [entriesOf]
      · simp [entriesOf, h]
    · rw [entriesOf_setLedger]
      split
      · subst_vars
        rw [entriesOf_some hl, closeWindow_entries]
      · rfl

theorem cleanupLedger_frame (s : InboxDeliveryCoordinator Key Payload) (chatId : Key) :
    (s.cleanupLedger chatId).pendingAcks = s.pendingAcks ∧ (s.cleanupLedger chatId).nextUid = s.nextUid ∧
      (s.cleanupLedger chatId).fenceSettledMessages = s.fenceSettledMessages ∧
      (s.cleanupLedger chatId).confirmedAcks = s.confirmedAcks := by
  unfold cleanupLedger
  split
  · exact ⟨rfl, rfl, rfl, rfl⟩
  · split <;> exact ⟨rfl, rfl, rfl, rfl⟩

theorem advances_cleanupLedger (s : InboxDeliveryCoordinator Key Payload) (chatId : Key) :
    s.Advances (s.cleanupLedger chatId) := by
  obtain ⟨hp, hn, hm, ha⟩ := cleanupLedger_frame s chatId
  refine ⟨fun c => ?_, fun c job hj => Or.inl (hp ▸ hj), Nat.le_of_eq hn.symm, fun c => by rw [hm], ha⟩
  rw [entriesOf_cleanupLedger]
  exact .refl _

/-! ## Recovery -/

theorem advances_requestRecovery (cfg : InboxDeliveryCoordinatorConfig) (s : InboxDeliveryCoordinator Key Payload) (chatId : Key) :
    s.Advances (s.requestRecovery cfg chatId) := by
  unfold requestRecovery
  split
  · exact .refl s
  · split
    · have h : s.Advances (s.setLedger chatId { s.ledger chatId with recoveryDebt := .running }) :=
        advances_setLedger_same (ledger_entries s chatId)
      exact h.trans (.of_frame rfl rfl (Nat.le_succ _) rfl rfl)
    · exact advances_setLedger_same (ledger_entries s chatId)

theorem advances_markRecoveryDebt (cfg : InboxDeliveryCoordinatorConfig) (s : InboxDeliveryCoordinator Key Payload) (chatId : Key)
    (requestNow : Bool) : s.Advances (s.markRecoveryDebt cfg chatId requestNow) := by
  unfold markRecoveryDebt
  have h : s.Advances (s.setLedger chatId
      { s.ledger chatId with recoveryDebt := .required, recoveryWindowOpen := false, recoveryActivationReady := false }) :=
    advances_setLedger_same (ledger_entries s chatId)
  dsimp only
  split
  · exact h.trans (advances_requestRecovery cfg _ chatId)
  · exact h

theorem requestRecovery_pendingAcks (cfg : InboxDeliveryCoordinatorConfig) (s : InboxDeliveryCoordinator Key Payload)
    (chatId : Key) : (s.requestRecovery cfg chatId).pendingAcks = s.pendingAcks := by
  unfold requestRecovery
  split
  · rfl
  · split <;> rfl

theorem markRecoveryDebt_pendingAcks (cfg : InboxDeliveryCoordinatorConfig) (s : InboxDeliveryCoordinator Key Payload)
    (chatId : Key) (requestNow : Bool) : (s.markRecoveryDebt cfg chatId requestNow).pendingAcks = s.pendingAcks := by
  unfold markRecoveryDebt
  dsimp only
  split
  · exact requestRecovery_pendingAcks cfg _ chatId
  · rfl

theorem advances_clearEntriesForRecoverySuccess (s : InboxDeliveryCoordinator Key Payload) (chatId : Key) :
    s.Advances (s.clearEntriesForRecoverySuccess chatId) := by
  unfold clearEntriesForRecoverySuccess
  have h : s.Advances (s.setLedger chatId
      { s.ledger chatId with entries := (s.ledger chatId).entries.filter SurvivesRecovery }) := by
    refine advances_setLedger ?_
    rw [← ledger_entries]
    exact .of_sublist List.filter_sublist
  exact h.trans (.of_frame rfl rfl (Nat.le_refl _) rfl rfl)

theorem advances_markFenceSettled (s : InboxDeliveryCoordinator Key Payload) (chatId : Key) (messageIds : List Key) :
    s.Advances (s.markFenceSettled chatId messageIds) := by
  refine ⟨fun c => .refl _, fun c job hj => Or.inl hj, Nat.le_refl _, fun c => ?_, rfl⟩
  by_cases hc : c = chatId
  · subst hc
    simp only [markFenceSettled, Function.update_self]
    exact Finset.subset_union_left
  · simp only [markFenceSettled, Function.update_of_ne hc]
    exact Finset.Subset.refl _

theorem forgetSettled_frame (s : InboxDeliveryCoordinator Key Payload) (chatId : Key)
    (committed : List (TrackedDelivery Key Payload)) :
    (s.forgetSettled chatId committed).ledgers = s.ledgers ∧ (s.forgetSettled chatId committed).pendingAcks = s.pendingAcks ∧
      (s.forgetSettled chatId committed).nextUid = s.nextUid ∧
      (s.forgetSettled chatId committed).fenceSettledMessages = s.fenceSettledMessages ∧
      (s.forgetSettled chatId committed).confirmedAcks = s.confirmedAcks := by
  unfold forgetSettled
  induction committed generalizing s with
  | nil => exact ⟨rfl, rfl, rfl, rfl, rfl⟩
  | cons e rest ih =>
    rw [List.foldl_cons]
    exact ih _

theorem advances_forgetSettled (s : InboxDeliveryCoordinator Key Payload) (chatId : Key)
    (committed : List (TrackedDelivery Key Payload)) : s.Advances (s.forgetSettled chatId committed) := by
  obtain ⟨hl, hp, hn, hm, ha⟩ := forgetSettled_frame s chatId committed
  exact .of_frame hl hp (Nat.le_of_eq hn.symm) hm ha

omit [DecidableEq Key] in
theorem advances_onDeliveriesCommitted (s : InboxDeliveryCoordinator Key Payload) (chatId : Key)
    (committed : List (TrackedDelivery Key Payload)) : s.Advances (s.onDeliveriesCommitted chatId committed) := by
  unfold onDeliveriesCommitted
  split
  · exact .refl s
  · exact .of_frame rfl rfl (Nat.le_refl _) rfl rfl

theorem advances_commitRemaining (s : InboxDeliveryCoordinator Key Payload) (chatId : Key) :
    s.Advances (s.commitRemainingEntriesFromServerProof chatId) := by
  unfold commitRemainingEntriesFromServerProof
  split
  · exact advances_cleanupLedger s chatId
  · rename_i l hl
    have h : s.Advances (s.setLedger chatId { l with entries := [], needsAckSettlementReconcile := false }) :=
      advances_setLedger (.of_sublist (List.nil_sublist _))
    dsimp only
    split
    · exact h.trans (advances_cleanupLedger _ chatId)
    · refine h.trans (.trans ?_ (advances_cleanupLedger _ chatId))
      exact (advances_markFenceSettled _ chatId _).trans
        ((advances_forgetSettled _ chatId l.entries).trans (advances_onDeliveriesCommitted _ chatId l.entries))

theorem advances_answerRecovery (s : InboxDeliveryCoordinator Key Payload) (chatId : Key) :
    s.Advances (s.answerRecovery chatId) :=
  .of_frame rfl rfl (Nat.le_refl _) rfl rfl

theorem advances_recoverChatResolved (s : InboxDeliveryCoordinator Key Payload) (chatId : Key) (unackedOutstanding : Option Nat) :
    s.Advances (s.recoverChatResolved chatId unackedOutstanding) := by
  unfold recoverChatResolved
  dsimp only
  have hanswered : s.Advances ((s.answerRecovery chatId).setLedger chatId
      { (s.answerRecovery chatId).ledger chatId with needsAckSettlementReconcile := false }) :=
    (advances_answerRecovery s chatId).trans (advances_setLedger_same (ledger_entries _ chatId))
  refine hanswered.trans ?_
  generalize (s.answerRecovery chatId).setLedger chatId _ = t
  split
  · refine (advances_commitRemaining t chatId).trans ?_
    split
    · exact .refl _
    · rename_i l hl
      refine .trans ?_ (advances_cleanupLedger _ chatId)
      exact advances_setLedger_same (entriesOf_some hl).symm
  · refine (advances_clearEntriesForRecoverySuccess t chatId).trans ?_
    exact advances_setLedger_same (ledger_entries _ chatId)

theorem advances_recoverChatRejected (s : InboxDeliveryCoordinator Key Payload) (chatId : Key) :
    s.Advances (s.recoverChatRejected chatId) :=
  (advances_answerRecovery s chatId).trans (advances_setLedger_same (ledger_entries s chatId))

theorem advances_reconcileAckSettlement (cfg : InboxDeliveryCoordinatorConfig) (s : InboxDeliveryCoordinator Key Payload)
    (chatId : Key) : s.Advances (s.reconcileAckSettlement cfg chatId) := by
  unfold reconcileAckSettlement
  split
  · exact advances_requestRecovery cfg s chatId
  · exact .refl s

theorem advances_completeBindRecovery (s : InboxDeliveryCoordinator Key Payload) (chatId : Key) :
    s.Advances (s.completeBindRecovery chatId) := by
  unfold completeBindRecovery
  split
  · exact .refl s
  · exact (advances_clearEntriesForRecoverySuccess s chatId).trans (advances_setLedger_same (ledger_entries _ chatId))

theorem advances_takeRecoveryActivationReady (s : InboxDeliveryCoordinator Key Payload) (chatId : Key) :
    s.Advances (s.takeRecoveryActivationReady chatId).2 := by
  unfold takeRecoveryActivationReady
  split
  · exact .refl s
  · rename_i l hl
    split
    · exact advances_setLedger_same (entriesOf_some hl).symm
    · exact .refl s

/-! ## ACK-through -/

theorem advances_ackThrough (s : InboxDeliveryCoordinator Key Payload) (chatId : Key) (throughEntryId : Nat) (caller : AckCaller)
    (requestRecoveryOnAckFailure : Bool) :
    s.Advances (s.ackThrough chatId throughEntryId caller true requestRecoveryOnAckFailure) := by
  unfold ackThrough
  split
  · exact .of_frame rfl rfl (Nat.le_refl _) rfl rfl
  · rename_i l hl
    have h : s.Advances (s.setLedger chatId { l with ackQueue := some s.nextUid }) :=
      advances_setLedger_same (entriesOf_some hl).symm
    refine h.trans ⟨fun c => .refl _, ?_, Nat.le_succ _, fun c => Finset.Subset.refl _, rfl⟩
    intro c job hj
    by_cases hc : c = chatId
    · subst hc
      simp only [Function.update_self, List.mem_append, List.mem_singleton] at hj
      rcases hj with hj | rfl
      · exact Or.inl hj
      · exact Or.inr ⟨fun pre h => (nomatch h), fun _ => rfl⟩
    · simp only [Function.update_of_ne hc] at hj
      exact Or.inl hj

theorem advances_settleAck (s : InboxDeliveryCoordinator Key Payload) (chatId : Key) (job : AckJob Key Payload)
    (committed : Bool) : s.Advances (s.settleAck chatId job committed) := by
  refine ⟨fun c => .refl _, ?_, Nat.le_refl _, fun c => Finset.Subset.refl _, rfl⟩
  intro c j hj
  by_cases hc : c = chatId
  · subst hc
    simp only [settleAck, Function.update_self] at hj
    exact Or.inl (List.mem_of_mem_tail hj)
  · simp only [settleAck, Function.update_of_ne hc] at hj
    exact Or.inl hj

/-- An ACK of the chain that comes to an await, but was not sent. -/
theorem advances_awaitAck {s : InboxDeliveryCoordinator Key Payload} {chatId : Key} {job : AckJob Key Payload}
    {stage : AckStage Key Payload} (hj : job ∈ s.pendingAcks chatId) (hs : ∀ pre, stage ≠ .sending pre) :
    s.Advances (s.awaitAck chatId job stage) := by
  refine ⟨fun c => .refl _, ?_, Nat.le_refl _, fun c => Finset.Subset.refl _, rfl⟩
  intro c j hmem
  by_cases hc : c = chatId
  · subst hc
    simp only [awaitAck, Function.update_self, List.mem_cons] at hmem
    rcases hmem with rfl | hmem
    · exact Or.inr ⟨hs, fun hg => hg job hj⟩
    · exact Or.inl (List.mem_of_mem_tail hmem)
  · simp only [awaitAck, Function.update_of_ne hc] at hmem
    exact Or.inl hmem

theorem advances_ackEntryRejected (cfg : InboxDeliveryCoordinatorConfig) (s : InboxDeliveryCoordinator Key Payload) (chatId : Key)
    (job : AckJob Key Payload) : s.Advances (s.ackEntryRejected cfg chatId job) := by
  unfold ackEntryRejected
  dsimp only
  refine .trans ?_
    ((advances_markRecoveryDebt cfg _ chatId job.requestRecoveryOnAckFailure).trans (advances_settleAck _ chatId job false))
  split
  · exact .refl s
  · rename_i l hl
    exact advances_setLedger_same (entriesOf_some hl).symm

theorem advances_clearNoticeSettle (s : InboxDeliveryCoordinator Key Payload) (chatId : Key) (uid : Nat) :
    s.Advances (s.updateEntries chatId (List.map fun tracked =>
      if tracked.uid = uid then { tracked with noticeSettleInFlight := false } else tracked)) := by
  refine advances_mapEntries fun e _ => ?_
  split
  · exact .of_same rfl rfl rfl rfl rfl
  · exact .refl e

theorem advances_afterAck (cfg : InboxDeliveryCoordinatorConfig) (s : InboxDeliveryCoordinator Key Payload) (chatId : Key)
    (caller : AckCaller) (committed : Bool) : s.Advances (s.afterAck cfg chatId caller committed) := by
  have hdebt : ∀ requestNow : Bool, s.Advances
      (if (s.entriesOf chatId).isEmpty then s else s.markRecoveryDebt cfg chatId requestNow) := by
    intro requestNow
    split
    · exact .refl s
    · exact advances_markRecoveryDebt cfg s chatId requestNow
  cases caller with
  | finishTurn => exact .of_frame rfl rfl (Nat.le_refl _) rfl rfl
  | terminalRejected => exact .refl s
  | redeliveryTerminalRetry => exact .refl s
  | prepareSuspend => exact hdebt true
  | prepareOperatorSuspend => exact hdebt false
  | drainForTerminate requestNow => exact hdebt requestNow
  | noticeRequiredRedelivery uid => exact advances_clearNoticeSettle s chatId uid

theorem advances_releaseAckQueue (s : InboxDeliveryCoordinator Key Payload) (chatId : Key) (jobId : Nat) :
    s.Advances (s.releaseAckQueue chatId jobId) := by
  unfold releaseAckQueue
  split
  · exact .refl s
  · rename_i l hl
    split
    · have h : s.Advances (s.setLedger chatId { l with ackQueue := none }) := advances_setLedger_same (entriesOf_some hl).symm
      exact h.trans (advances_cleanupLedger _ chatId)
    · exact .refl s

theorem advances_resume (cfg : InboxDeliveryCoordinatorConfig) (s : InboxDeliveryCoordinator Key Payload)
    (continuation : Continuation Key) : s.Advances (s.resume cfg continuation) := by
  cases continuation with
  | ackSettled chatId jobId caller committed =>
    exact (advances_releaseAckQueue s chatId jobId).trans (.of_frame rfl rfl (Nat.le_refl _) rfl rfl)
  | ackReturned chatId caller committed => exact advances_afterAck cfg s chatId caller committed
  | noticeFinally chatId uid => exact advances_clearNoticeSettle s chatId uid

/-! ## Notices -/

theorem advances_retainNoticeCustody (cfg : InboxDeliveryCoordinatorConfig) (s : InboxDeliveryCoordinator Key Payload) (chatId : Key)
    (uid : Nat) : s.Advances (s.retainNoticeCustody cfg chatId uid) :=
  (advances_markRecoveryDebt cfg s chatId false).trans (.of_frame rfl rfl (Nat.le_refl _) rfl rfl)

theorem advances_settleNoticeRequiredRedelivery (cfg : InboxDeliveryCoordinatorConfig) (s : InboxDeliveryCoordinator Key Payload)
    (chatId : Key) (tracked : TrackedDelivery Key Payload) :
    s.Advances (s.settleNoticeRequiredRedelivery cfg chatId tracked) := by
  unfold settleNoticeRequiredRedelivery
  split
  · exact .refl s
  · dsimp only
    have h : s.Advances (s.updateEntries chatId (List.map fun e =>
        if e.uid = tracked.uid then { e with noticeSettleInFlight := true } else e)) := by
      refine advances_mapEntries fun e _ => ?_
      split
      · exact .of_same rfl rfl rfl rfl rfl
      · exact .refl e
    refine h.trans ?_
    split
    · exact .of_frame rfl rfl (Nat.le_refl _) rfl rfl
    · exact advances_retainNoticeCustody cfg _ chatId tracked.uid

theorem advances_postNoticeResolved (s : InboxDeliveryCoordinator Key Payload) (post : NoticePost Key Payload) :
    s.Advances (s.postNoticeResolved post) := by
  unfold postNoticeResolved
  refine .trans ?_ (advances_ackThrough _ post.chatId post.entryId _ false)
  refine advances_mapEntries fun e _ => ?_
  split
  · exact ⟨rfl, rfl, rfl, fun _ => rfl, fun _ _ => rfl⟩
  · exact .refl e

/-! ## Receiving, turns and routes -/

theorem advances_receiveActive (cfg : InboxDeliveryCoordinatorConfig) (s : InboxDeliveryCoordinator Key Payload) (chatId : Key)
    (work : DeliveryWork Key) (tracked : TrackedDelivery Key Payload) :
    s.Advances (receiveActive cfg s chatId work tracked).2 := by
  unfold receiveActive
  split
  · refine advances_mapEntries fun e _ => ?_
    split
    · exact .of_same rfl rfl rfl rfl rfl
    · exact .refl e
  · split
    · exact advances_settleNoticeRequiredRedelivery cfg s chatId tracked
    · split
      · exact advances_ackThrough s chatId tracked.entryId .redeliveryTerminalRetry true
      · exact .refl s

theorem entriesOf_insertEntry (s : InboxDeliveryCoordinator Key Payload) (chatId : Key) (entryId : Nat) (messageId : Key)
    (c : Key) : (s.insertEntry chatId entryId messageId).entriesOf c =
      if c = chatId then sortEntries (s.entriesOf chatId ++ [newEntry s.nextUid entryId messageId]) else s.entriesOf c := by
  rw [← ledger_entries s chatId]
  exact entriesOf_setLedger s chatId _ c

theorem advances_runAdmission (s : InboxDeliveryCoordinator Key Payload) (chatId : Key) : s.Advances (s.runAdmission chatId) :=
  advances_setLedger_same (ledger_entries s chatId)

theorem advances_admissionSettled (s : InboxDeliveryCoordinator Key Payload) (chatId : Key) :
    s.Advances (s.admissionSettled chatId) := by
  unfold admissionSettled
  split
  · exact .refl s
  · rename_i l hl
    have h : s.Advances (s.setLedger chatId { l with admissions := l.admissions - 1 }) :=
      advances_setLedger_same (entriesOf_some hl).symm
    dsimp only
    split
    · exact h.trans (advances_cleanupLedger _ chatId)
    · exact h

theorem advances_markReplayFenceWithheld (s : InboxDeliveryCoordinator Key Payload) (chatId : Key) (messageIds : List Key) :
    s.Advances (s.markReplayFenceWithheld chatId messageIds) := by
  refine advances_mapEntries fun e _ => ?_
  split
  · exact .of_same rfl rfl rfl rfl rfl
  · exact .refl e

theorem advances_settleReplayFencedEntries (s : InboxDeliveryCoordinator Key Payload) (chatId : Key) (messageIds : List Key) :
    s.Advances (s.settleReplayFencedEntries chatId messageIds) :=
  (advances_markFenceSettled s chatId messageIds).trans
    ((advances_updateEntries (.of_sublist List.filter_sublist)).trans (advances_cleanupLedger _ chatId))

theorem advances_markOwned (s : InboxDeliveryCoordinator Key Payload) (work : DeliveryWork Key) :
    s.Advances (s.markOwned work).2 := by
  unfold markOwned
  split
  · exact .refl s
  · refine advances_mapEntries fun e _ => ?_
    split
    · rename_i h
      exact ⟨rfl, rfl, rfl, fun ht => by simp [h.2] at ht, fun _ ht => by simp at ht⟩
    · exact .refl e

theorem advances_markProcessingStarted (s : InboxDeliveryCoordinator Key Payload) (chatId : Key)
    (messages : List (SessionMessage Key)) : s.Advances (s.markProcessingStarted chatId messages) := by
  refine advances_mapEntries fun e _ => ?_
  split
  · refine ⟨rfl, rfl, rfl, fun ht => by simp [ht], ?_⟩
    intro hn ht
    by_cases ho : e.phase = .open
    · simp [ho] at ht
    · simp only [ho, if_false] at ht
      exact hn ht
  · exact .refl e

theorem advances_markTerminal (s : InboxDeliveryCoordinator Key Payload) (chatId : Key) (messages : List (SessionMessage Key)) :
    s.Advances (s.markTerminal chatId messages) := by
  refine advances_mapEntries fun e _ => ?_
  split
  · exact ⟨rfl, rfl, rfl, fun _ => rfl, fun _ _ => rfl⟩
  · exact .refl e

theorem advances_endTurn (s : InboxDeliveryCoordinator Key Payload) (chatId : Key) (messages : List (SessionMessage Key))
    (caller : AckCaller) : s.Advances (s.endTurn chatId messages caller) := by
  unfold endTurn
  split
  · exact .refl s
  · exact (advances_markTerminal s chatId messages).trans (advances_ackThrough _ chatId _ caller true)

theorem advances_finishTurn (s : InboxDeliveryCoordinator Key Payload) (chatId : Key) (messages : List (SessionMessage Key)) :
    s.Advances (s.finishTurn chatId messages) := by
  unfold finishTurn
  split
  · exact .of_frame rfl rfl (Nat.le_refl _) rfl rfl
  · exact advances_endTurn s chatId messages .finishTurn

theorem advances_releaseTurn (cfg : InboxDeliveryCoordinatorConfig) (s : InboxDeliveryCoordinator Key Payload) (chatId : Key)
    (messages : List (SessionMessage Key)) (requestNow : Bool) : s.Advances (s.releaseTurn cfg chatId messages requestNow) := by
  unfold releaseTurn
  split
  · exact advances_markRecoveryDebt cfg s chatId requestNow
  · exact .refl s

/-- A notice that no terminal entry is made to owe. -/
theorem advances_markNoticeRequired {s : InboxDeliveryCoordinator Key Payload} {chatId : Key} {messages : List (SessionMessage Key)}
    (payload : Option Payload)
    (h : ∀ e ∈ s.entriesOf chatId, e.entryId ∈ messageEntryIds chatId messages → e.phase ≠ .terminal) :
    s.Advances (s.markNoticeRequired chatId messages payload) := by
  refine advances_mapEntries fun e he => ?_
  split
  · rename_i hid
    exact ⟨rfl, rfl, rfl, id, fun _ ht => absurd ht (h e he hid)⟩
  · exact .refl e

omit [DecidableEq Key] in
theorem entriesAdvance_markProcessingPrefix (payload : Payload) (es : List (TrackedDelivery Key Payload)) :
    EntriesAdvance es (markProcessingPrefix payload es) := by
  induction es with
  | nil => exact .refl []
  | cons e rest ih =>
    unfold markProcessingPrefix
    split
    · exact .cons (.refl e) ih
    · rename_i hnt
      split
      · exact .cons ⟨rfl, rfl, rfl, id, fun _ ht => absurd ht hnt⟩ ih
      · exact .refl _

/-! ## Suspension, eviction and termination -/

theorem advances_ackPrefixThenRelease (cfg : InboxDeliveryCoordinatorConfig) (s : InboxDeliveryCoordinator Key Payload)
    (chatId : Key) (prefixEntries : List (TrackedDelivery Key Payload)) (caller : AckCaller)
    (requestRecoveryOnAckFailure : Bool) :
    s.Advances (s.ackPrefixThenRelease cfg chatId prefixEntries caller requestRecoveryOnAckFailure) := by
  unfold ackPrefixThenRelease
  split
  · exact advances_afterAck cfg s chatId caller false
  · exact advances_ackThrough s chatId _ caller requestRecoveryOnAckFailure

omit [DecidableEq Key] in
theorem entriesAdvance_resolvePrefix (es : List (TrackedDelivery Key Payload)) :
    EntriesAdvance es ((resolvePrefix es).1 ++ (resolvePrefix es).2) := by
  induction es with
  | nil => exact .refl []
  | cons e rest ih =>
    unfold resolvePrefix
    split
    · exact .cons (.refl e) ih
    · split
      · exact .refl _
      · rename_i hn
        split
        · have hfalse : e.requiresDurableNotice = false := by simpa using hn
          exact .cons ⟨rfl, rfl, rfl, fun _ => rfl, fun _ _ => hfalse⟩ ih
        · exact .refl _

theorem advances_prepareSuspend (cfg : InboxDeliveryCoordinatorConfig) (s : InboxDeliveryCoordinator Key Payload) (chatId : Key) :
    s.Advances (s.prepareSuspend cfg chatId) := by
  unfold prepareSuspend
  split
  · exact .refl s
  · exact advances_ackPrefixThenRelease cfg s chatId _ .prepareSuspend true

theorem advances_prepareOperatorSuspend (cfg : InboxDeliveryCoordinatorConfig) (s : InboxDeliveryCoordinator Key Payload)
    (chatId : Key) : s.Advances (s.prepareOperatorSuspend cfg chatId) := by
  unfold prepareOperatorSuspend
  split
  · exact .refl s
  · refine .trans ?_ (advances_ackPrefixThenRelease cfg _ chatId _ .prepareOperatorSuspend false)
    exact advances_updateEntries (entriesAdvance_resolvePrefix (s.entriesOf chatId))

theorem advances_prepareEvict (cfg : InboxDeliveryCoordinatorConfig) (s : InboxDeliveryCoordinator Key Payload) (chatId : Key) :
    s.Advances (s.prepareEvict cfg chatId) := by
  unfold prepareEvict
  split
  · exact .refl s
  · exact advances_markRecoveryDebt cfg s chatId true

theorem advances_drainForTerminate (cfg : InboxDeliveryCoordinatorConfig) (s : InboxDeliveryCoordinator Key Payload) (chatId : Key)
    (requestNow : Bool) : s.Advances (s.drainForTerminate cfg chatId requestNow) := by
  unfold drainForTerminate
  split
  · exact .refl s
  · exact advances_ackPrefixThenRelease cfg s chatId _ (.drainForTerminate requestNow) true

/-! ## Steps -/

/-- The ledger that `receive` makes sure of has the entries there were. -/
theorem findEntry_received (s : InboxDeliveryCoordinator Key Payload) (chatId : Key) (entryId : Nat) :
    (s.setLedger chatId (s.ledger chatId)).findEntry chatId entryId = s.findEntry chatId entryId := by
  rw [findEntry, entriesOf_setLedger, if_pos rfl, ledger_entries]
  rfl

/-- A frame inserts nothing, or it is new to a chat that owes no recovery, its message neither marked settled nor in flight, and it
becomes an entry. -/
theorem receive_cases (cfg : InboxDeliveryCoordinatorConfig) (s : InboxDeliveryCoordinator Key Payload)
    (entry : InboxEntryWithMessage Key) :
    s.Advances (s.receive cfg entry).2 ∨
      (s.ledger (frameChat entry)).recoveryDebt = .none ∧ s.findEntry (frameChat entry) entry.id = none ∧
        entry.messageId ∉ s.fenceSettledMessages (frameChat entry) ∧
        ¬ (s.deduplicator.has (dedupKey (frameChat entry) entry.messageId) = true ∧
          ∃ tracked ∈ s.entriesOf (frameChat entry), tracked.messageId = entry.messageId) ∧
        ∃ s', s.Advances s' ∧ s'.pendingAcks = s.pendingAcks ∧ s'.findEntry (frameChat entry) entry.id = none ∧
          (s.receive cfg entry).2 = s'.insertEntry (frameChat entry) entry.id entry.messageId := by
  have hledger : s.Advances (s.setLedger (frameChat entry) (s.ledger (frameChat entry))) :=
    advances_setLedger_same (ledger_entries s _)
  have hdedup : ∀ d, s.Advances { s.setLedger (frameChat entry) (s.ledger (frameChat entry)) with deduplicator := d } :=
    fun d => hledger.trans (.of_frame rfl rfl (Nat.le_refl _) rfl rfl)
  unfold receive
  dsimp only
  split
  · exact Or.inl hledger
  · rename_i hdebt
    split
    · rename_i tracked _
      exact Or.inl (hledger.trans (advances_receiveActive cfg _ _ _ tracked))
    · rename_i hnone
      split
      · exact Or.inl hledger
      · rename_i hfence
        split
        · exact Or.inl (hdedup _)
        · rename_i hdup
          refine Or.inr ⟨by simpa using hdebt, (findEntry_received s _ _).symm.trans hnone, hfence, ?_, _, ?_, ?_, ?_, rfl⟩
          · rintro ⟨hhas, tracked, htracked, hmessage⟩
            refine hdup ?_
            rw [Bool.and_eq_true, List.any_eq_true, ledger_entries]
            exact ⟨(Deduplicator.isDuplicate_fst _ _).trans hhas, tracked, htracked, decide_eq_true hmessage⟩
          · exact hdedup _
          · rfl
          · exact hnone

/-- The first ACK of a chain is sent or blocked, is confirmed, or settles without an effect on the ledger. -/
theorem stepAck_cases (cfg : InboxDeliveryCoordinatorConfig) {s t : InboxDeliveryCoordinator Key Payload} {chatId : Key}
    {op : Op Key Payload} (hstep : s.stepAck cfg chatId op = some t) :
    s.Advances t ∨ ∃ job ∈ s.pendingAcks chatId, t = s.ackThroughNow cfg chatId job ∨
      ∃ pre, job.stage = .sending pre ∧ t = s.ackEntryResolved chatId job pre := by
  unfold stepAck at hstep
  split at hstep
  · exact absurd hstep (by simp)
  · rename_i job rest hchain
    have hj : job ∈ s.pendingAcks chatId := by simp [hchain]
    split at hstep
    · exact Or.inr ⟨job, hj, Or.inl (Option.some.inj hstep).symm⟩
    · rename_i pre _ hstage
      exact Or.inr ⟨job, hj, Or.inr ⟨pre, hstage, (Option.some.inj hstep).symm⟩⟩
    · obtain rfl := Option.some.inj hstep
      exact Or.inl (advances_ackEntryRejected cfg s chatId job)
    · split at hstep
      · exact absurd hstep (by simp)
      · obtain rfl := Option.some.inj hstep
        exact Or.inl (advances_settleAck s chatId job false)
    · exact absurd hstep (by simp)

/-- Every step but a frame that comes in, a notice that is asked for and an ACK that is sent or confirmed advances the ledgers. -/
theorem step_cases (cfg : InboxDeliveryCoordinatorConfig) {s t : InboxDeliveryCoordinator Key Payload} {op : Op Key Payload}
    (hstep : step cfg s op = some t) :
    s.Advances t ∨ (∃ entry, op = .receive entry ∧ t = (s.receive cfg entry).2) ∨
      (∃ chatId messages payload, op = .markNoticeRequired chatId messages payload ∧
        t = s.markNoticeRequired chatId messages payload) ∨
      ∃ chatId, ∃ job ∈ s.pendingAcks chatId, t = s.ackThroughNow cfg chatId job ∨
        ∃ pre, job.stage = .sending pre ∧ t = s.ackEntryResolved chatId job pre := by
  have advance : ∀ {t'}, step cfg s op = some t' → s.Advances t' → s.Advances t := by
    intro t' ht' hadv
    obtain rfl := Option.some.inj (hstep.symm.trans ht')
    exact hadv
  have answer : ∀ {P : Prop} [Decidable P] {t'}, step cfg s op = (if P then some t' else none) → s.Advances t' →
      s.Advances t := by
    intro P _ t' ht' hadv
    by_cases hP : P
    · exact advance (ht'.trans (if_pos hP)) hadv
    · rw [hstep, if_neg hP] at ht'
      exact absurd ht' (by simp)
  cases op with
  | receive entry => exact Or.inr (Or.inl ⟨entry, rfl, (Option.some.inj hstep).symm⟩)
  | takeRecoveryActivationReady chatId => exact Or.inl (advance rfl (advances_takeRecoveryActivationReady s chatId))
  | recoverIfNeeded chatId => exact Or.inl (advance rfl (advances_requestRecovery cfg s chatId))
  | reconcileAckSettlement chatId => exact Or.inl (advance rfl (advances_reconcileAckSettlement cfg s chatId))
  | runAdmission chatId => exact Or.inl (advance rfl (advances_runAdmission s chatId))
  | admissionSettled chatId => exact Or.inl (advance rfl (advances_admissionSettled s chatId))
  | markReplayFenceWithheld chatId messageIds =>
    exact Or.inl (advance rfl (advances_markReplayFenceWithheld s chatId messageIds))
  | markFenceSettled chatId messageIds => exact Or.inl (advance rfl (advances_markFenceSettled s chatId messageIds))
  | settleReplayFencedEntries chatId messageIds =>
    exact Or.inl (advance rfl (advances_settleReplayFencedEntries s chatId messageIds))
  | markOwned work => exact Or.inl (advance rfl (advances_markOwned s work))
  | markProcessingStarted chatId messages => exact Or.inl (advance rfl (advances_markProcessingStarted s chatId messages))
  | finishTurn chatId messages => exact Or.inl (advance rfl (advances_finishTurn s chatId messages))
  | terminalRejected chatId messages => exact Or.inl (advance rfl (advances_endTurn s chatId messages .terminalRejected))
  | retryTurn chatId messages => exact Or.inl (advance rfl (advances_releaseTurn cfg s chatId messages true))
  | parkTurnForDeferredRecovery chatId messages =>
    exact Or.inl (advance rfl (advances_releaseTurn cfg s chatId messages false))
  | completeBindRecovery chatId => exact Or.inl (advance rfl (advances_completeBindRecovery s chatId))
  | markNoticeRequired chatId messages payload =>
    exact Or.inr (Or.inr (Or.inl ⟨chatId, messages, payload, rfl, (Option.some.inj hstep).symm⟩))
  | markNoticeRequiredForProcessingPrefix chatId payload =>
    exact Or.inl (advance rfl (advances_updateEntries (entriesAdvance_markProcessingPrefix payload (s.entriesOf chatId))))
  | prepareSuspend chatId => exact Or.inl (advance rfl (advances_prepareSuspend cfg s chatId))
  | prepareOperatorSuspend chatId => exact Or.inl (advance rfl (advances_prepareOperatorSuspend cfg s chatId))
  | prepareEvict chatId => exact Or.inl (advance rfl (advances_prepareEvict cfg s chatId))
  | drainForTerminate chatId requestNow => exact Or.inl (advance rfl (advances_drainForTerminate cfg s chatId requestNow))
  | ackThroughNow chatId => exact (stepAck_cases cfg hstep).imp id fun hack => Or.inr (Or.inr ⟨chatId, hack⟩)
  | ackEntryResolved chatId => exact (stepAck_cases cfg hstep).imp id fun hack => Or.inr (Or.inr ⟨chatId, hack⟩)
  | ackEntryRejected chatId => exact (stepAck_cases cfg hstep).imp id fun hack => Or.inr (Or.inr ⟨chatId, hack⟩)
  | ackUnblocked chatId => exact (stepAck_cases cfg hstep).imp id fun hack => Or.inr (Or.inr ⟨chatId, hack⟩)
  | recoverChatResolved chatId unackedOutstanding =>
    exact Or.inl (answer rfl (advances_recoverChatResolved s chatId unackedOutstanding))
  | recoverChatRejected chatId => exact Or.inl (answer rfl (advances_recoverChatRejected s chatId))
  | recoverChatFinally chatId => exact Or.inl (answer rfl (.of_frame rfl rfl (Nat.le_refl _) rfl rfl))
  | postNoticeResolved i =>
    obtain ⟨post, _, rfl⟩ := Option.map_eq_some_iff.mp hstep
    have htaken : s.Advances { s with noticePosts := s.noticePosts.eraseIdx i } := .of_frame rfl rfl (Nat.le_refl _) rfl rfl
    exact Or.inl (htaken.trans (advances_postNoticeResolved _ post))
  | postNoticeRejected i =>
    obtain ⟨post, _, rfl⟩ := Option.map_eq_some_iff.mp hstep
    have htaken : s.Advances { s with noticePosts := s.noticePosts.eraseIdx i } := .of_frame rfl rfl (Nat.le_refl _) rfl rfl
    exact Or.inl (htaken.trans (advances_retainNoticeCustody cfg _ post.chatId post.uid))
  | resume i =>
    obtain ⟨continuation, _, rfl⟩ := Option.map_eq_some_iff.mp hstep
    have htaken : s.Advances { s with resumable := s.resumable.eraseIdx i } := .of_frame rfl rfl (Nat.le_refl _) rfl rfl
    exact Or.inl (htaken.trans (advances_resume cfg _ continuation))

end InboxDeliveryCoordinator

end FirstTree
