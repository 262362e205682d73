import FirstTree.Lib.Runs
import FirstTree.Lemmas.Coordinator

/-!
# What a confirmed ACK commits

An ACK-through checks the prefix of the ledger when it is sent and commits by entry id when it is confirmed. `CustodyOk` carries the
check across the await: while the ACK is out, every entry up to its cursor is one that was checked. A frame inserted below the cursor
breaks this, and so does a notice put on an entry that is terminal already, since the check reads the phase alone.
-/

namespace FirstTree

open InboxDeliveryCoordinator

variable {Key Payload : Type} [DecidableEq Key]

/-- An entry that an ACK may commit. -/
def TrackedDelivery.Ackable (e : TrackedDelivery Key Payload) : Prop :=
  e.phase = .terminal ∧ e.requiresDurableNotice = false

instance (e : TrackedDelivery Key Payload) : Decidable e.Ackable :=
  inferInstanceAs (Decidable (_ ∧ _))

/-- An entry of the ledger is one of the entries of a list, at an ackable moment of it. -/
def AckableIn (pre : List (TrackedDelivery Key Payload)) (e : TrackedDelivery Key Payload) : Prop :=
  ∃ p ∈ pre, p.uid = e.uid ∧ p.entryId = e.entryId ∧ p.Ackable

instance (pre : List (TrackedDelivery Key Payload)) (e : TrackedDelivery Key Payload) : Decidable (AckableIn pre e) :=
  inferInstanceAs (Decidable (∃ p ∈ pre, _))

/-- What left the ledger on a confirmed ACK was terminal and owed no notice, both when the ACK was sent and when it left. -/
def ConfirmedAck.CommitsAckable (ack : ConfirmedAck Key Payload) : Prop :=
  ∀ e ∈ ack.committed, e.Ackable ∧ AckableIn ack.ackPrefix e

instance (ack : ConfirmedAck Key Payload) : Decidable ack.CommitsAckable :=
  inferInstanceAs (Decidable (∀ e ∈ ack.committed, _))

/-! ## The condition on the steps -/

/-- The frame becomes a new entry of its chat's ledger. -/
def ReceiveInserts (s : InboxDeliveryCoordinator Key Payload) (entry : InboxEntryWithMessage Key) : Prop :=
  (s.ledger (frameChat entry)).recoveryDebt = .none ∧ s.findEntry (frameChat entry) entry.id = none ∧
    entry.messageId ∉ s.fenceSettledMessages (frameChat entry) ∧
    ¬ (s.deduplicator.has (dedupKey (frameChat entry) entry.messageId) = true ∧
      ∃ tracked ∈ s.entriesOf (frameChat entry), tracked.messageId = entry.messageId)

/-- An ACK of the chat through this entry id or a later one was sent and has not settled. -/
def BelowSentAck (s : InboxDeliveryCoordinator Key Payload) (chatId : Key) (entryId : Nat) : Prop :=
  ∃ job ∈ s.pendingAcks chatId, job.stage.isSending = true ∧ entryId ≤ job.throughEntryId

/-- No frame is inserted below an ACK that is out, and no notice is put on a terminal entry. -/
def KeepsCustody (s : InboxDeliveryCoordinator Key Payload) : Op Key Payload → Prop
  | .receive entry => ¬ (ReceiveInserts s entry ∧ BelowSentAck s (frameChat entry) entry.id)
  | .markNoticeRequired chatId messages _ =>
    ∀ e ∈ s.entriesOf chatId, e.entryId ∈ messageEntryIds chatId messages → e.phase ≠ .terminal
  | _ => True

instance (s : InboxDeliveryCoordinator Key Payload) (entry : InboxEntryWithMessage Key) : Decidable (ReceiveInserts s entry) :=
  inferInstanceAs (Decidable (_ ∧ _ = none ∧ _ ∧ ¬ (_ ∧ ∃ tracked ∈ s.entriesOf (frameChat entry), _)))

instance (s : InboxDeliveryCoordinator Key Payload) (chatId : Key) (entryId : Nat) : Decidable (BelowSentAck s chatId entryId) :=
  inferInstanceAs (Decidable (∃ job ∈ s.pendingAcks chatId, _))

instance (s : InboxDeliveryCoordinator Key Payload) (op : Op Key Payload) : Decidable (KeepsCustody s op) :=
  match op with
  | .receive entry => inferInstanceAs (Decidable (¬ (ReceiveInserts s entry ∧ _)))
  | .markNoticeRequired chatId _ _ => inferInstanceAs (Decidable (∀ e ∈ s.entriesOf chatId, _ → _ ≠ _))
  | .takeRecoveryActivationReady _ | .recoverIfNeeded _ | .reconcileAckSettlement _ | .runAdmission _ | .admissionSettled _
  | .markReplayFenceWithheld _ _ | .markFenceSettled _ _ | .settleReplayFencedEntries _ _ | .markOwned _
  | .markProcessingStarted _ _ | .finishTurn _ _ | .terminalRejected _ _ | .retryTurn _ _ | .parkTurnForDeferredRecovery _ _
  | .completeBindRecovery _ | .markNoticeRequiredForProcessingPrefix _ _ | .prepareSuspend _ | .prepareOperatorSuspend _
  | .prepareEvict _ | .drainForTerminate _ _ | .ackThroughNow _ | .ackEntryResolved _ | .ackEntryRejected _ | .ackUnblocked _
  | .recoverChatResolved _ _ | .recoverChatRejected _ | .recoverChatFinally _ | .postNoticeResolved _ | .postNoticeRejected _
  | .resume _ => .isTrue trivial

/-! ## The invariant -/

/-- The ledger under an ACK that is out: what was checked was ackable, and every entry up to the cursor was checked. -/
structure SentPrefix (throughEntryId : Nat) (pre entries : List (TrackedDelivery Key Payload)) : Prop where
  checked : ∀ p ∈ pre, p.Ackable
  covered : ∀ e ∈ entries, e.entryId ≤ throughEntryId → e.phase = .terminal ∧ ∃ p ∈ pre, p.uid = e.uid ∧ p.entryId = e.entryId

/-- The invariant of a ledger: sorted by entry id, each object once, no notice owed by a terminal entry. -/
structure LedgerOk (nextUid : Nat) (entries : List (TrackedDelivery Key Payload)) : Prop where
  sorted : (entries.map (·.entryId)).Pairwise (· < ·)
  uidsNodup : (entries.map (·.uid)).Nodup
  uidsOld : ∀ e ∈ entries, e.uid < nextUid
  notices : ∀ e ∈ entries, e.NoticeSettled

/-- The invariant of the coordinator. -/
structure CustodyOk (s : InboxDeliveryCoordinator Key Payload) : Prop where
  ledgers : ∀ chatId, LedgerOk s.nextUid (s.entriesOf chatId)
  gated : ∀ chatId, Gated (s.pendingAcks chatId)
  sent : ∀ chatId, ∀ job ∈ s.pendingAcks chatId, ∀ pre, job.stage = .sending pre →
    SentPrefix job.throughEntryId pre (s.entriesOf chatId)
  confirmed : ∀ ack ∈ s.confirmedAcks, ack.CommitsAckable

namespace CustodyAux

omit [DecidableEq Key] in
theorem sentPrefix_advance {c : Nat} {pre es es' : List (TrackedDelivery Key Payload)} (h : SentPrefix c pre es)
    (ha : EntriesAdvance es es') : SentPrefix c pre es' := by
  refine ⟨h.checked, ?_⟩
  intro e' he' hc
  obtain ⟨e, he, hadv⟩ := ha.from_old e' he'
  obtain ⟨ht, p, hp, hpu, hpi⟩ := h.covered e he (hadv.entryId ▸ hc)
  exact ⟨hadv.terminal ht, p, hp, hpu.trans hadv.uid.symm, hpi.trans hadv.entryId.symm⟩

omit [DecidableEq Key] in
theorem ledgerOk_advance {n n' : Nat} {es es' : List (TrackedDelivery Key Payload)} (h : LedgerOk n es) (hn : n ≤ n')
    (ha : EntriesAdvance es es') : LedgerOk n' es' := by
  refine ⟨h.sorted.sublist ha.entryIds, h.uidsNodup.sublist ha.uids, ?_, ?_⟩
  · intro e' he'
    obtain ⟨e, he, hadv⟩ := ha.from_old e' he'
    have hold := h.uidsOld e he
    rw [hadv.uid]
    omega
  · intro e' he'
    obtain ⟨e, he, hadv⟩ := ha.from_old e' he'
    exact hadv.notice (h.notices e he)

omit [DecidableEq Key] in
/-- A step that inserts, sends and confirms nothing. -/
theorem custodyOk_advance {s s' : InboxDeliveryCoordinator Key Payload} (h : CustodyOk s) (ha : s.Advances s') : CustodyOk s' := by
  refine ⟨fun c => ledgerOk_advance (h.ledgers c) ha.nextUid (ha.entries c), fun c => ha.gated (h.gated c), ?_, ?_⟩
  · intro c job hj pre hpre
    rcases ha.jobs c job hj with hold | ⟨hns, _⟩
    · exact sentPrefix_advance (h.sent c job hold pre hpre) (ha.entries c)
    · exact absurd hpre (hns pre)
  · rw [ha.confirmedAcks]
    exact h.confirmed

/-! ### A frame comes in -/

omit [DecidableEq Key] in
theorem ledgerOk_insert {n : Nat} {es : List (TrackedDelivery Key Payload)} {e : TrackedDelivery Key Payload} (h : LedgerOk n es)
    (hu : e.uid = n) (hid : ∀ x ∈ es, x.entryId ≠ e.entryId) (hn : e.NoticeSettled) :
    LedgerOk (n + 1) (InboxDeliveryCoordinator.sortEntries (es ++ [e])) := by
  have hperm := sortEntries_perm (es ++ [e])
  have hmem : ∀ x ∈ InboxDeliveryCoordinator.sortEntries (es ++ [e]), x ∈ es ∨ x = e := by
    intro x hx
    simpa using hperm.mem_iff.mp hx
  have hids : ((es ++ [e]).map (·.entryId)).Nodup := by
    rw [List.map_append, List.map_singleton, List.nodup_append]
    refine ⟨h.sorted.imp fun hlt => Nat.ne_of_lt hlt, List.nodup_singleton _, ?_⟩
    intro a ha b hb hab
    obtain ⟨x, hx, rfl⟩ := List.mem_map.mp ha
    exact hid x hx (hab.trans (List.mem_singleton.mp hb))
  have huids : ((es ++ [e]).map (·.uid)).Nodup := by
    rw [List.map_append, List.map_singleton, List.nodup_append]
    refine ⟨h.uidsNodup, List.nodup_singleton _, ?_⟩
    intro a ha b hb hab
    obtain ⟨x, hx, rfl⟩ := List.mem_map.mp ha
    have heq : x.uid = e.uid := hab.trans (List.mem_singleton.mp hb)
    have hlt := h.uidsOld x hx
    omega
  refine ⟨sortEntries_sorted hids, (hperm.map _).nodup_iff.mpr huids, ?_, ?_⟩
  · intro x hx
    rcases hmem x hx with hx | rfl
    · exact Nat.lt_succ_of_lt (h.uidsOld x hx)
    · omega
  · intro x hx
    rcases hmem x hx with hx | rfl
    · exact h.notices x hx
    · exact hn

/-- A frame that is inserted above every ACK that is out. -/
theorem custodyOk_insertEntry {s : InboxDeliveryCoordinator Key Payload} {chatId : Key} {entryId : Nat} (messageId : Key)
    (h : CustodyOk s) (hnew : s.findEntry chatId entryId = none) (habove : ¬ BelowSentAck s chatId entryId) :
    CustodyOk (s.insertEntry chatId entryId messageId) := by
  refine ⟨?_, h.gated, ?_, h.confirmed⟩
  · intro c
    rw [entriesOf_insertEntry]
    split
    · refine ledgerOk_insert (h.ledgers chatId) rfl ?_ fun _ => rfl
      intro x hx heq
      exact List.find?_eq_none.mp hnew x hx (decide_eq_true heq)
    · have hold := h.ledgers c
      exact ledgerOk_advance hold (Nat.le_succ _) (.refl _)
  · intro c job hj pre hpre
    have hold := h.sent c job hj pre hpre
    rw [entriesOf_insertEntry]
    split
    · subst_vars
      refine ⟨hold.checked, ?_⟩
      intro e he hle
      rcases List.mem_append.mp ((sortEntries_perm _).mem_iff.mp he) with he | he
      · exact hold.covered e he hle
      · rw [List.mem_singleton] at he
        subst he
        exact absurd ⟨job, hj, by rw [hpre]; rfl, hle⟩ habove
    · exact hold

/-! ### An ACK is sent and confirmed -/

omit [DecidableEq Key] in
/-- The checked prefix holds every entry up to the cursor. -/
theorem ackPrefix_covers {n c : Nat} {es pre : List (TrackedDelivery Key Payload)} (h : LedgerOk n es)
    (hpre : ackPrefix es c = some pre) : ∀ e ∈ es, e.entryId ≤ c → e ∈ pre := by
  unfold ackPrefix at hpre
  split at hpre
  · exact absurd hpre (by simp)
  · rename_i index hindex
    simp only [Option.some.injEq] at hpre
    subst hpre
    obtain ⟨hlt, hat, _⟩ := List.findIdx?_eq_some_iff_getElem.mp hindex
    have hcursor : es[index].entryId = c := of_decide_eq_true hat
    intro e he hle
    obtain ⟨i, hi, rfl⟩ := List.getElem_of_mem he
    rw [List.mem_take_iff_getElem]
    refine ⟨i, ?_, rfl⟩
    by_contra hgt
    have hidx : index < i := by omega
    have hsorted := List.pairwise_iff_getElem.mp h.sorted index i (by simpa using hlt) (by simpa using hi) hidx
    simp only [List.getElem_map] at hsorted
    omega

/-- An ACK whose prefix is terminal is sent. -/
theorem custodyOk_sendAck {s : InboxDeliveryCoordinator Key Payload} {chatId : Key} {job : AckJob Key Payload}
    {pre : List (TrackedDelivery Key Payload)} (h : CustodyOk s) (hj : job ∈ s.pendingAcks chatId)
    (hpre : ackPrefix (s.entriesOf chatId) job.throughEntryId = some pre) (hterm : ∀ p ∈ pre, p.phase = .terminal) :
    CustodyOk (s.awaitAck chatId job (.sending pre)) := by
  have hsub : ∀ p ∈ pre, p ∈ s.entriesOf chatId := by
    unfold ackPrefix at hpre
    split at hpre
    · exact absurd hpre (by simp)
    · simp only [Option.some.injEq] at hpre
      exact fun p hp => List.mem_of_mem_take (hpre ▸ hp)
  have hchain : ∀ c, ∀ j ∈ (s.awaitAck chatId job (.sending pre)).pendingAcks c,
      j ∈ s.pendingAcks c ∨ c = chatId ∧ j = { job with stage := .sending pre } := by
    intro c j hmem
    by_cases hc : c = chatId
    · subst hc
      simp only [awaitAck, Function.update_self, List.mem_cons] at hmem
      rcases hmem with hmem | hmem
      · exact Or.inr ⟨rfl, hmem⟩
      · exact Or.inl (List.mem_of_mem_tail hmem)
    · simp only [awaitAck, Function.update_of_ne hc] at hmem
      exact Or.inl hmem
  refine ⟨h.ledgers, ?_, ?_, h.confirmed⟩
  · intro c j hmem
    rcases hchain c j hmem with hold | ⟨rfl, rfl⟩
    · exact h.gated c j hold
    · exact h.gated c job hj
  · intro c j hmem pre' hstage
    rcases hchain c j hmem with hold | ⟨rfl, rfl⟩
    · exact h.sent c j hold pre' hstage
    · cases hstage
      refine ⟨fun p hp => ⟨hterm p hp, (h.ledgers c).notices p (hsub p hp) (hterm p hp)⟩, ?_⟩
      intro e he hle
      have hmem := ackPrefix_covers (h.ledgers c) hpre e he hle
      exact ⟨hterm e hmem, e, hmem, rfl, rfl⟩

/-- The ACK that is sent has checked its prefix. -/
theorem custodyOk_ackThroughNow (cfg : InboxDeliveryCoordinatorConfig) {s : InboxDeliveryCoordinator Key Payload} {chatId : Key}
    {job : AckJob Key Payload} (h : CustodyOk s) (hj : job ∈ s.pendingAcks chatId) :
    CustodyOk (s.ackThroughNow cfg chatId job) := by
  have hsettle := custodyOk_advance h (advances_settleAck s chatId job false)
  unfold ackThroughNow
  split
  · exact hsettle
  · rename_i l hl
    split
    · exact hsettle
    · split
      · exact hsettle
      · rename_i pre hpre
        split
        · have hdebt := advances_markRecoveryDebt cfg s chatId true
          refine custodyOk_advance (custodyOk_advance h hdebt) (advances_awaitAck ?_ fun _ => (nomatch ·))
          rw [markRecoveryDebt_pendingAcks]
          exact hj
        · rename_i hgate
          have hterm : ∀ p ∈ pre, p.phase = .terminal := by
            intro p hp
            by_contra hne
            exact hgate ⟨h.gated chatId job hj, p, hp, hne⟩
          rw [← entriesOf_some hl] at hpre
          exact custodyOk_advance (custodyOk_sendAck h hj hpre hterm) (.of_frame rfl rfl (Nat.le_refl _) rfl rfl)

omit [DecidableEq Key] in
theorem custodyOk_recordAck {s : InboxDeliveryCoordinator Key Payload} {ack : ConfirmedAck Key Payload} (h : CustodyOk s)
    (hack : ack.CommitsAckable) : CustodyOk (s.recordAck ack) := by
  refine ⟨h.ledgers, h.gated, h.sent, ?_⟩
  intro a ha
  rcases List.mem_append.mp ha with ha | ha
  · exact h.confirmed a ha
  · rw [List.mem_singleton] at ha
    subst ha
    exact hack

/-- The ACK that is confirmed commits entries it checked. -/
theorem custodyOk_ackEntryResolved {s : InboxDeliveryCoordinator Key Payload} {chatId : Key} {job : AckJob Key Payload}
    {pre : List (TrackedDelivery Key Payload)} (h : CustodyOk s) (hj : job ∈ s.pendingAcks chatId)
    (hstage : job.stage = .sending pre) : CustodyOk (s.ackEntryResolved chatId job pre) := by
  have hsent := h.sent chatId job hj pre hstage
  unfold ackEntryResolved
  split
  · exact custodyOk_advance h (advances_settleAck s chatId job false)
  · rename_i l hl
    rw [entriesOf_some hl] at hsent
    dsimp only
    refine custodyOk_advance ?_ ((advances_cleanupLedger _ chatId).trans (advances_settleAck _ chatId job true))
    refine custodyOk_recordAck ?_ ?_
    · refine custodyOk_advance h (.trans (advances_setLedger ?_)
        ((advances_forgetSettled _ chatId _).trans (advances_onDeliveriesCommitted _ chatId _)))
      rw [entriesOf_some hl]
      exact .of_sublist List.filter_sublist
    · intro e he
      obtain ⟨hmem, hle⟩ := List.mem_filter.mp he
      obtain ⟨hterm, p, hp, hpu, hpi⟩ := hsent.covered e hmem (of_decide_eq_true hle)
      have hnotice := (h.ledgers chatId).notices e (entriesOf_some hl ▸ hmem) hterm
      exact ⟨⟨hterm, hnotice⟩, p, hp, hpu, hpi, hsent.checked p hp⟩

/-! ### Every step -/

theorem custodyOk_receive (cfg : InboxDeliveryCoordinatorConfig) {s : InboxDeliveryCoordinator Key Payload}
    {entry : InboxEntryWithMessage Key} (h : CustodyOk s)
    (habove : ¬ (ReceiveInserts s entry ∧ BelowSentAck s (frameChat entry) entry.id)) : CustodyOk (s.receive cfg entry).2 := by
  rcases receive_cases cfg s entry with hadv | ⟨hdebt, hnone, hfence, hdup, s', hadv, hpending, hnew, hinsert⟩
  · exact custodyOk_advance h hadv
  · rw [hinsert]
    refine custodyOk_insertEntry entry.messageId (custodyOk_advance h hadv) hnew ?_
    rintro ⟨job, hj, hsent⟩
    rw [hpending] at hj
    exact habove ⟨⟨hdebt, hnone, hfence, hdup⟩, job, hj, hsent⟩

/-- Every step that meets the condition keeps the invariant. -/
theorem custodyOk_step (cfg : InboxDeliveryCoordinatorConfig) :
    Runs.Preserves (Runs.Guarded KeepsCustody (Runs.ofPartial (step cfg)))
      fun s : InboxDeliveryCoordinator Key Payload => CustodyOk s := by
  rintro s op t h ⟨hguard, hstep⟩
  rcases step_cases cfg hstep with hadv | ⟨entry, rfl, rfl⟩ | ⟨chatId, messages, payload, rfl, rfl⟩ |
    ⟨chatId, job, hj, rfl | ⟨pre, hstage, rfl⟩⟩
  · exact custodyOk_advance h hadv
  · exact custodyOk_receive cfg h hguard
  · exact custodyOk_advance h (advances_markNoticeRequired payload hguard)
  · exact custodyOk_ackThroughNow cfg h hj
  · exact custodyOk_ackEntryResolved h hj hstage

omit [DecidableEq Key] in
theorem custodyOk_init : CustodyOk (init : InboxDeliveryCoordinator Key Payload) := by
  refine ⟨fun _ => ⟨.nil, .nil, ?_, ?_⟩, fun _ _ hj => (nomatch hj), fun _ _ hj => (nomatch hj), fun _ ha => (nomatch ha)⟩
  · exact fun _ he => (nomatch he)
  · exact fun _ he => (nomatch he)

end CustodyAux

open CustodyAux

/-- In a run that inserts no frame below an ACK that is out and puts no notice on a terminal entry, every entry a confirmed ACK
commits was terminal and owed no notice when the ACK was sent, and still is when it leaves the ledger. -/
theorem confirmed_ack_commits_ackable (cfg : InboxDeliveryCoordinatorConfig) {ops : List (Op Key Payload)}
    {s : InboxDeliveryCoordinator Key Payload} (hr : Runs.Run (Runs.Guarded KeepsCustody (Runs.ofPartial (step cfg))) init ops s) :
    ∀ ack ∈ s.confirmedAcks, ack.CommitsAckable :=
  (hr.invariant (custodyOk_step cfg) custodyOk_init).confirmed

/-! ## Runs of one chat -/

namespace ConfirmedAckExample

/-- Both optional callbacks. -/
def config : InboxDeliveryCoordinatorConfig :=
  { recoverChat := true, postRuntimeFailureNotice := true }

/-- The frame of an entry of chat 0. -/
def frame (entryId : Nat) : InboxEntryWithMessage Nat :=
  { id := entryId, chatId := some 0, messageId := entryId, messageChatId := 0 }

/-- Entry 5 is finished and its ACK is sent; another entry comes in before the ACK is confirmed. -/
def receiveDuringAck (entryId : Nat) : List (Op Nat Unit) :=
  [.receive (frame 5), .finishTurn 0 [{ chatId := 0, inboxEntryId := some 5 }], .ackThroughNow 0, .receive (frame entryId),
    .ackEntryResolved 0]

/-- Entry 7 comes in while the ACK of entry 5 is out, and stays. -/
theorem confirmed_ack_commits_ackable_above :
    ∃ s : InboxDeliveryCoordinator Nat Unit, (s.entriesOf 0).map (·.entryId) = [7] ∧
      s.confirmedAcks.map (·.throughEntryId) = [5] ∧ ∀ ack ∈ s.confirmedAcks, ack.CommitsAckable := by
  have hrun : ((receiveDuringAck 7).foldlM
      (fun s op => if KeepsCustody s op then step config s op else none) init).map
        (fun s => ((s.entriesOf 0).map (·.entryId), s.confirmedAcks.map (·.throughEntryId))) = some ([7], [5]) := by decide
  obtain ⟨s, hs, hout⟩ := Option.map_eq_some_iff.mp hrun
  obtain ⟨hentries, hacks⟩ := Prod.mk.inj hout
  exact ⟨s, hentries, hacks, confirmed_ack_commits_ackable config (Runs.Run.guarded_of_foldlM hs)⟩

/-- What was to hold of every run: a confirmed ACK commits ackable entries only. -/
def EveryConfirmedAckCommitsAckable : Prop :=
  ∀ (ops : List (Op Nat Unit)) s, Runs.Run (Runs.ofPartial (step config)) init ops s →
    ∀ ack ∈ s.confirmedAcks, ack.CommitsAckable

/-- Entry 3 comes in while the ACK of entry 5 is out, and is committed open. -/
theorem every_confirmed_ack_commits_ackable_false : ¬ EveryConfirmedAckCommitsAckable := by
  intro hall
  have hrun : ((receiveDuringAck 3).foldlM (step config) init).map
      (fun s => decide (∀ ack ∈ s.confirmedAcks, ack.CommitsAckable)) = some false := by decide
  obtain ⟨s, hs, hbad⟩ := Option.map_eq_some_iff.mp hrun
  exact of_decide_eq_false hbad (hall _ s (Runs.Run.of_foldlM hs))

/-- A notice that a terminal entry is made to owe does not stop its ACK. -/
example : ((([.receive (frame 5), .finishTurn 0 [{ chatId := 0, inboxEntryId := some 5 }],
      .markNoticeRequired 0 [{ chatId := 0, inboxEntryId := some 5 }] none, .ackThroughNow 0, .ackEntryResolved 0] :
        List (Op Nat Unit)).foldlM (step config) init).map
      (fun s => s.confirmedAcks.map fun ack => ack.committed.map (·.requiresDurableNotice))) = some [[true]] := by
  decide

end ConfirmedAckExample

end FirstTree
