import FirstTree.Lib.Runs
import FirstTree.Lemmas.Coordinator

/-!
# What becomes of frames of a settled message

A message of a chat that the server proved settled is marked. The marks are never taken back, so a frame of the message that the
ledger does not hold is refused for the rest of the run, whatever is recovered, ACKed or suspended in between. A refused frame gets
the answer of a duplicate and leaves no entry behind: what a settlement drops from the ledger stays out of it.
-/

namespace FirstTree

open Runs InboxDeliveryCoordinator

variable {Key Payload : Type} [DecidableEq Key]

/-- The operation marks the message of the chat as settled. -/
def MarksSettled (chatId messageId : Key) : Op Key Payload → Prop
  | .markFenceSettled c messageIds => c = chatId ∧ messageId ∈ messageIds
  | .settleReplayFencedEntries c messageIds => c = chatId ∧ messageId ∈ messageIds
  | _ => False

/-- The frame is of an entry that the ledger holds as withheld. -/
def HeldAsWithheld (s : InboxDeliveryCoordinator Key Payload) (frame : InboxEntryWithMessage Key) : Prop :=
  ∃ tracked, s.findEntry (frameChat frame) frame.id = some tracked ∧ tracked.replayFencedWithheld = true

/-- The ledger of the chat has no entry of the message. -/
def HasNone (s : InboxDeliveryCoordinator Key Payload) (chatId messageId : Key) : Prop :=
  ∀ e ∈ s.entriesOf chatId, e.messageId ≠ messageId

/-- The frames that come in give each entry of a chat one message. -/
def OneMessageEach (ops : List (Op Key Payload)) : Prop :=
  ∀ f g, .receive f ∈ ops → .receive g ∈ ops → frameChat f = frameChat g → f.id = g.id → f.messageId = g.messageId

/-- A frame of a settled message: the chat owes a recovery first, or it is a duplicate. -/
def settledAnswer (s : InboxDeliveryCoordinator Key Payload) (chatId : Key) : DeliveryDecision Key :=
  if (s.ledger chatId).recoveryDebt = .none then .duplicateInFlight else .recovering

/-- What holds of every run that goes on from a state `marked`, which the operation `op` led to from the operations `before` when it
marked a message of a chat as settled. -/
structure SuppressesSettled (cfg : InboxDeliveryCoordinatorConfig) (chatId messageId : Key) (before : List (Op Key Payload))
    (op : Op Key Payload) (marked : InboxDeliveryCoordinator Key Payload) : Prop where
  suppressed : ∀ after t frame, Run (ofPartial (step cfg)) marked after t → frameChat frame = chatId → frame.messageId = messageId →
    ¬ HeldAsWithheld t frame → (t.receive cfg frame).1 = settledAnswer t chatId
  added : ∀ after t frame, Run (ofPartial (step cfg)) marked after t → frameChat frame = chatId → frame.messageId = messageId →
    ∀ c, (((t.receive cfg frame).2.entriesOf c).map (·.entryId)).Sublist ((t.entriesOf c).map (·.entryId))
  dropped : ∀ messageIds, op = .settleReplayFencedEntries chatId messageIds → HasNone marked chatId messageId
  gone : HasNone marked chatId messageId → ∀ after t, Run (ofPartial (step cfg)) marked after t → HasNone t chatId messageId
  undelivered : HasNone marked chatId messageId → ∀ after t frame, Run (ofPartial (step cfg)) marked after t →
    frameChat frame = chatId → frame.messageId = messageId → OneMessageEach (before ++ op :: after ++ [.receive frame]) →
    (t.receive cfg frame).1 = settledAnswer t chatId

namespace FenceSettlementAux

/-- Nothing is unmarked and no entry comes in. -/
structure Keeps (s t : InboxDeliveryCoordinator Key Payload) : Prop where
  markers : ∀ c, s.fenceSettledMessages c ⊆ t.fenceSettledMessages c
  entries : ∀ c, ∀ e' ∈ t.entriesOf c, ∃ e ∈ s.entriesOf c, e.entryId = e'.entryId ∧ e.messageId = e'.messageId

/-- An entry that comes in is that of a frame whose message is not marked. -/
structure Carries (s : InboxDeliveryCoordinator Key Payload) (op : Op Key Payload) (t : InboxDeliveryCoordinator Key Payload) :
    Prop where
  markers : ∀ c, s.fenceSettledMessages c ⊆ t.fenceSettledMessages c
  entries : ∀ c, ∀ e' ∈ t.entriesOf c, (∃ e ∈ s.entriesOf c, e.entryId = e'.entryId ∧ e.messageId = e'.messageId) ∨
    ∃ frame, op = .receive frame ∧ frameChat frame = c ∧ frame.id = e'.entryId ∧ frame.messageId = e'.messageId ∧
      frame.messageId ∉ s.fenceSettledMessages c

namespace Keeps

variable {s t u : InboxDeliveryCoordinator Key Payload}

omit [DecidableEq Key] in
theorem trans (h : Keeps s t) (h' : Keeps t u) : Keeps s u := by
  refine ⟨fun c => (h.markers c).trans (h'.markers c), ?_⟩
  intro c e'' he''
  obtain ⟨e', he', hi', hm'⟩ := h'.entries c e'' he''
  obtain ⟨e, he, hi, hm⟩ := h.entries c e' he'
  exact ⟨e, he, hi.trans hi', hm.trans hm'⟩

omit [DecidableEq Key] in
theorem of_advances (h : s.Advances t) : Keeps s t := by
  refine ⟨h.markers, ?_⟩
  intro c e' he'
  obtain ⟨e, he, hadv⟩ := (h.entries c).from_old e' he'
  exact ⟨e, he, hadv.entryId.symm, hadv.messageId.symm⟩

omit [DecidableEq Key] in
/-- The ledgers and the markers are left alone. -/
theorem of_same (hl : t.ledgers = s.ledgers) (hm : t.fenceSettledMessages = s.fenceSettledMessages) : Keeps s t := by
  refine ⟨fun c => by rw [hm], ?_⟩
  intro c e' he'
  rw [entriesOf, hl] at he'
  exact ⟨e', he', rfl, rfl⟩

omit [DecidableEq Key] in
theorem carries (h : Keeps s t) (op : Op Key Payload) : Carries s op t :=
  ⟨h.markers, fun c e' he' => .inl (h.entries c e' he')⟩

end Keeps

/-! ## One step -/

/-- A notice that is asked for, of entries that stay. -/
theorem keeps_markNoticeRequired (s : InboxDeliveryCoordinator Key Payload) (chatId : Key) (messages : List (SessionMessage Key))
    (payload : Option Payload) : Keeps s (s.markNoticeRequired chatId messages payload) := by
  unfold markNoticeRequired updateEntries
  split
  · exact .of_same rfl rfl
  · rename_i l hl
    refine ⟨fun c => Finset.Subset.refl _, ?_⟩
    intro c e' he'
    rw [entriesOf_setLedger] at he'
    split at he'
    · rename_i hc
      subst hc
      obtain ⟨e, he, rfl⟩ := List.mem_map.mp he'
      refine ⟨e, entriesOf_some hl ▸ he, ?_⟩
      split <;> exact ⟨rfl, rfl⟩
    · exact ⟨e', he', rfl, rfl⟩

/-- An ACK that is sent or blocked. -/
theorem keeps_ackThroughNow (cfg : InboxDeliveryCoordinatorConfig) (s : InboxDeliveryCoordinator Key Payload) (chatId : Key)
    (job : AckJob Key Payload) : Keeps s (s.ackThroughNow cfg chatId job) := by
  have hsettle : Keeps s (s.settleAck chatId job false) := .of_same rfl rfl
  unfold ackThroughNow
  split
  · exact hsettle
  · split
    · exact hsettle
    · split
      · exact hsettle
      · split
        · exact (Keeps.of_advances (advances_markRecoveryDebt cfg s chatId true)).trans (.of_same rfl rfl)
        · exact .of_same rfl rfl

/-- An ACK that is confirmed. -/
theorem keeps_ackEntryResolved (s : InboxDeliveryCoordinator Key Payload) (chatId : Key) (job : AckJob Key Payload)
    (pre : List (TrackedDelivery Key Payload)) : Keeps s (s.ackEntryResolved chatId job pre) := by
  unfold ackEntryResolved
  split
  · exact .of_same rfl rfl
  · rename_i l hl
    dsimp only
    refine .trans ?_ (.of_advances ((advances_cleanupLedger _ chatId).trans (advances_settleAck _ chatId job true)))
    refine .trans (.of_advances (.trans (advances_setLedger ?_)
      ((advances_forgetSettled _ chatId _).trans (advances_onDeliveriesCommitted _ chatId _)))) (.of_same rfl rfl)
    rw [entriesOf_some hl]
    exact .of_sublist List.filter_sublist

/-- A frame that comes in. -/
theorem carries_receive (cfg : InboxDeliveryCoordinatorConfig) (s : InboxDeliveryCoordinator Key Payload)
    (frame : InboxEntryWithMessage Key) : Carries s (.receive frame) (s.receive cfg frame).2 := by
  rcases receive_cases cfg s frame with hadv | ⟨_, _, hfence, _, s', hadv, _, _, hinsert⟩
  · exact (Keeps.of_advances hadv).carries _
  · rw [hinsert]
    refine ⟨hadv.markers, ?_⟩
    intro c e' he'
    rw [entriesOf_insertEntry] at he'
    split at he'
    · rename_i hc
      subst hc
      rcases List.mem_append.mp ((sortEntries_perm _).mem_iff.mp he') with hold | hnew
      · exact .inl ((Keeps.of_advances hadv).entries _ e' hold)
      · rw [List.mem_singleton] at hnew
        subst hnew
        exact .inr ⟨frame, rfl, rfl, rfl, rfl, hfence⟩
    · exact .inl ((Keeps.of_advances hadv).entries c e' he')

/-- Every step. -/
theorem carries_step (cfg : InboxDeliveryCoordinatorConfig) {s t : InboxDeliveryCoordinator Key Payload} {op : Op Key Payload}
    (hstep : step cfg s op = some t) : Carries s op t := by
  rcases step_cases cfg hstep with hadv | ⟨frame, rfl, rfl⟩ | ⟨chatId, messages, payload, rfl, rfl⟩ |
    ⟨chatId, job, _, rfl | ⟨pre, _, rfl⟩⟩
  · exact (Keeps.of_advances hadv).carries op
  · exact carries_receive cfg s frame
  · exact (keeps_markNoticeRequired s chatId messages payload).carries _
  · exact (keeps_ackThroughNow cfg s chatId job).carries op
  · exact (keeps_ackEntryResolved s chatId job pre).carries op

/-- The operations that mark a message do. -/
theorem mem_markers_of_marksSettled (cfg : InboxDeliveryCoordinatorConfig) {s t : InboxDeliveryCoordinator Key Payload}
    {op : Op Key Payload} {chatId messageId : Key} (hop : MarksSettled chatId messageId op) (hstep : step cfg s op = some t) :
    messageId ∈ t.fenceSettledMessages chatId := by
  have hmark : ∀ messageIds, messageId ∈ messageIds →
      messageId ∈ (s.markFenceSettled chatId messageIds).fenceSettledMessages chatId := by
    intro messageIds hm
    simp only [markFenceSettled, Function.update_self, Finset.mem_union, List.mem_toFinset]
    exact .inr hm
  cases op with
  | markFenceSettled c messageIds =>
    obtain ⟨rfl, hm⟩ := hop
    obtain rfl := Option.some.inj hstep
    exact hmark messageIds hm
  | settleReplayFencedEntries c messageIds =>
    obtain ⟨rfl, hm⟩ := hop
    obtain rfl := Option.some.inj hstep
    exact ((advances_updateEntries (.of_sublist List.filter_sublist)).trans (advances_cleanupLedger _ c)).markers c
      (hmark messageIds hm)
  | _ => exact hop.elim

/-- `settleReplayFencedEntries` leaves no entry of its messages. -/
theorem hasNone_settleReplayFencedEntries (s : InboxDeliveryCoordinator Key Payload) {chatId messageId : Key}
    {messageIds : List Key} (hm : messageId ∈ messageIds) :
    HasNone (s.settleReplayFencedEntries chatId messageIds) chatId messageId := by
  intro e he heq
  unfold settleReplayFencedEntries at he
  rw [entriesOf_cleanupLedger] at he
  unfold updateEntries at he
  split at he
  · rename_i hnone
    rw [entriesOf_none hnone] at he
    exact absurd he List.not_mem_nil
  · rw [entriesOf_setLedger, if_pos rfl] at he
    exact of_decide_eq_true (List.mem_filter.mp he).2 (heq ▸ hm)

/-! ## A frame of a marked message -/

/-- A frame of a marked message that the ledger does not hold as withheld. -/
theorem receive_marked (cfg : InboxDeliveryCoordinatorConfig) {s : InboxDeliveryCoordinator Key Payload}
    {frame : InboxEntryWithMessage Key} (hmarked : frame.messageId ∈ s.fenceSettledMessages (frameChat frame))
    (hheld : ¬ HeldAsWithheld s frame) : (s.receive cfg frame).1 = settledAnswer s (frameChat frame) := by
  unfold receive settledAnswer
  dsimp only
  by_cases hdebt : (s.ledger (frameChat frame)).recoveryDebt = .none
  · rw [if_pos hdebt, if_neg (by simp [hdebt]), findEntry_received]
    cases hfind : s.findEntry (frameChat frame) frame.id with
    | none =>
      exact congrArg Prod.fst (if_pos hmarked)
    | some tracked =>
      have hnot : tracked.replayFencedWithheld = false := by
        by_contra hwithheld
        exact hheld ⟨tracked, hfind, by simpa using hwithheld⟩
      dsimp only
      unfold receiveActive
      rw [if_neg (by simp [hnot])]
      split
      · rfl
      · split <;> rfl
  · rw [if_neg hdebt, if_pos hdebt]

/-- A frame of a marked message adds no entry. -/
theorem receive_marked_adds_none (cfg : InboxDeliveryCoordinatorConfig) {s : InboxDeliveryCoordinator Key Payload}
    {frame : InboxEntryWithMessage Key} (hmarked : frame.messageId ∈ s.fenceSettledMessages (frameChat frame)) (c : Key) :
    (((s.receive cfg frame).2.entriesOf c).map (·.entryId)).Sublist ((s.entriesOf c).map (·.entryId)) := by
  rcases receive_cases cfg s frame with hadv | ⟨_, _, hfence, _⟩
  · exact (hadv.entries c).entryIds
  · exact absurd hmarked hfence

/-! ## Every run -/

/-- A message that is marked stays marked. -/
theorem markers_run (cfg : InboxDeliveryCoordinatorConfig) {s t : InboxDeliveryCoordinator Key Payload} {ops : List (Op Key Payload)}
    {chatId messageId : Key} (hr : Run (ofPartial (step cfg)) s ops t) (hmarked : messageId ∈ s.fenceSettledMessages chatId) :
    messageId ∈ t.fenceSettledMessages chatId := by
  refine hr.invariant (P := fun s => messageId ∈ s.fenceSettledMessages chatId) ?_ hmarked
  intro s op t hmem hstep
  exact (carries_step cfg hstep).markers chatId hmem

/-- A marked message that the ledger has no entry of gets none. -/
theorem hasNone_run (cfg : InboxDeliveryCoordinatorConfig) {s t : InboxDeliveryCoordinator Key Payload} {ops : List (Op Key Payload)}
    {chatId messageId : Key} (hr : Run (ofPartial (step cfg)) s ops t) (hmarked : messageId ∈ s.fenceSettledMessages chatId)
    (hnone : HasNone s chatId messageId) : HasNone t chatId messageId := by
  have hkeep : Preserves (ofPartial (step cfg)) fun s : InboxDeliveryCoordinator Key Payload =>
      messageId ∈ s.fenceSettledMessages chatId ∧ HasNone s chatId messageId := by
    rintro s op t ⟨hm, hn⟩ hstep
    have hcarries := carries_step cfg hstep
    refine ⟨hcarries.markers chatId hm, ?_⟩
    intro e' he' heq
    rcases hcarries.entries chatId e' he' with ⟨e, he, _, hmessage⟩ | ⟨frame, _, _, _, hmessage, hunmarked⟩
    · exact hn e he (hmessage.trans heq)
    · exact hunmarked ((hmessage.trans heq) ▸ hm)
  exact (hr.invariant hkeep ⟨hmarked, hnone⟩).2

/-- Every entry of a ledger is that of a frame that came in. -/
theorem entries_from_frames (cfg : InboxDeliveryCoordinatorConfig) {t : InboxDeliveryCoordinator Key Payload}
    {ops : List (Op Key Payload)} (hr : Run (ofPartial (step cfg)) init ops t) :
    ∀ c, ∀ e ∈ t.entriesOf c, ∃ frame, .receive frame ∈ ops ∧ frameChat frame = c ∧ frame.id = e.entryId ∧
      frame.messageId = e.messageId := by
  generalize hinit : (init : InboxDeliveryCoordinator Key Payload) = s at hr
  induction hr with
  | nil =>
    subst hinit
    intro c e he
    exact absurd he List.not_mem_nil
  | snoc _ hstep ih =>
    intro c e' he'
    rcases (carries_step cfg hstep).entries c e' he' with ⟨e, he, hid, hmessage⟩ | ⟨frame, rfl, hchat, hid, hmessage, _⟩
    · obtain ⟨frame, hmem, hchat, hfid, hfm⟩ := ih c e he
      exact ⟨frame, List.mem_append_left _ hmem, hchat, hfid.trans hid, hfm.trans hmessage⟩
    · exact ⟨frame, List.mem_append_right _ List.mem_cons_self, hchat, hid, hmessage⟩

/-- When each entry has one message, a frame of a message that the ledger has no entry of is of no entry that it holds. -/
theorem not_heldAsWithheld (cfg : InboxDeliveryCoordinatorConfig) {t : InboxDeliveryCoordinator Key Payload}
    {ops : List (Op Key Payload)} {frame : InboxEntryWithMessage Key} (hr : Run (ofPartial (step cfg)) init ops t)
    (hnone : HasNone t (frameChat frame) frame.messageId) (hone : OneMessageEach (ops ++ [.receive frame])) :
    ¬ HeldAsWithheld t frame := by
  rintro ⟨tracked, hfind, _⟩
  have hmem : tracked ∈ t.entriesOf (frameChat frame) := List.mem_of_find?_eq_some hfind
  have hid : tracked.entryId = frame.id := by
    have hfound := List.find?_some hfind
    exact of_decide_eq_true hfound
  obtain ⟨g, hg, hchat, hgid, hgm⟩ := entries_from_frames cfg hr _ tracked hmem
  have hsame := hone g frame (List.mem_append_left _ hg) (List.mem_append_right _ List.mem_cons_self) hchat (hgid.trans hid)
  exact hnone tracked hmem (hgm.symm.trans hsame)

end FenceSettlementAux

open FenceSettlementAux

/-- Once a message of a chat was marked settled, no frame of it that the ledger does not hold as withheld is delivered, none adds an
entry, and what `settleReplayFencedEntries` dropped never comes back to the ledger or to a session. -/
theorem settled_frames_suppressed (cfg : InboxDeliveryCoordinatorConfig) {before : List (Op Key Payload)} {op : Op Key Payload}
    {s marked : InboxDeliveryCoordinator Key Payload} {chatId messageId : Key}
    (hr : Run (ofPartial (step cfg)) init before s) (hop : MarksSettled chatId messageId op) (hstep : step cfg s op = some marked) :
    SuppressesSettled cfg chatId messageId before op marked := by
  have hmarked : ∀ {after t}, Run (ofPartial (step cfg)) marked after t → messageId ∈ t.fenceSettledMessages chatId :=
    fun hafter => markers_run cfg hafter (mem_markers_of_marksSettled cfg hop hstep)
  refine ⟨?_, ?_, ?_, ?_, ?_⟩
  · rintro after t frame hafter rfl rfl hheld
    exact receive_marked cfg (hmarked hafter) hheld
  · rintro after t frame hafter rfl rfl c
    exact receive_marked_adds_none cfg (hmarked hafter) c
  · rintro messageIds rfl
    obtain rfl := Option.some.inj hstep
    exact hasNone_settleReplayFencedEntries s hop.2
  · intro hnone after t hafter
    exact hasNone_run cfg hafter (hmarked (.nil marked)) hnone
  · rintro hnone after t frame hafter rfl rfl hone
    have hrun : Run (ofPartial (step cfg)) init (before ++ op :: after) t := by
      rw [List.append_cons]
      exact (hr.snoc hstep).append hafter
    exact receive_marked cfg (hmarked hafter)
      (not_heldAsWithheld cfg hrun (hasNone_run cfg hafter (hmarked (.nil marked)) hnone) hone)

/-! ## A frame that was withheld -/

namespace FenceSettlementExample

/-- No optional callback. -/
def config : InboxDeliveryCoordinatorConfig :=
  { recoverChat := false, postRuntimeFailureNotice := false }

/-- The frame of message 7, entry 5 of chat 0. -/
def frame : InboxEntryWithMessage Nat :=
  { id := 5, chatId := some 0, messageId := 7, messageChatId := 0 }

/-- The frame comes in and is withheld by the fence. -/
def withheld : List (Op Nat Unit) :=
  [.receive frame, .markReplayFenceWithheld 0 [7]]

/-- The withheld entry is dropped when its message is settled, and its frame is a duplicate from then on. -/
theorem settled_frames_suppressed_withheld : ∃ s marked : InboxDeliveryCoordinator Nat Unit,
    withheld.foldlM (step config) init = some s ∧ step config s (.settleReplayFencedEntries 0 [7]) = some marked ∧
      HasNone marked 0 7 ∧ (marked.receive config frame).1 = .duplicateInFlight := by
  have hrun : (withheld.foldlM (step config) init).map
      (fun s => ((s.settleReplayFencedEntries 0 [7]).ledger 0).recoveryDebt) = some .none := by decide
  obtain ⟨s, hs, hdebt⟩ := Option.map_eq_some_iff.mp hrun
  have hop : MarksSettled 0 7 (.settleReplayFencedEntries 0 [7] : Op Nat Unit) := ⟨rfl, List.mem_cons_self⟩
  have h := settled_frames_suppressed config (Run.of_foldlM hs) hop rfl
  have hone : OneMessageEach (withheld ++ [.settleReplayFencedEntries 0 [7]] ++ [.receive frame]) := by
    intro f g hf hg _ _
    simp only [withheld, List.cons_append, List.nil_append, List.mem_cons, Op.receive.injEq, reduceCtorEq, List.not_mem_nil,
      or_false, false_or, or_self] at hf hg
    rw [hf, hg]
  have hnone := h.dropped [7] rfl
  refine ⟨s, _, hs, rfl, hnone, ?_⟩
  rw [h.undelivered hnone [] _ frame (.nil _) rfl rfl hone]
  exact if_pos hdebt

/-- What was to hold of every run: a frame of a settled message is not delivered and its entry is terminal. -/
def EverySettledFrameIsTerminal : Prop :=
  ∀ (before after : List (Op Nat Unit)) op s marked t chatId messageId frame, Run (ofPartial (step config)) init before s →
    MarksSettled chatId messageId op → step config s op = some marked → Run (ofPartial (step config)) marked after t →
    frameChat frame = chatId → frame.messageId = messageId →
    (∀ work, (t.receive config frame).1 ≠ .deliver work) ∧
      ∃ e ∈ (t.receive config frame).2.entriesOf chatId, e.messageId = messageId ∧ e.phase = .terminal

/-- The frame of the dropped entry leaves no entry behind, so there is none to be terminal. -/
theorem every_settled_frame_is_terminal_false : ¬ EverySettledFrameIsTerminal := by
  intro hall
  have hrun : (withheld.foldlM (step config) init).map
      (fun s => ((s.settleReplayFencedEntries 0 [7]).receive config frame).2.entriesOf 0) = some [] := by decide
  obtain ⟨s, hs, hentries⟩ := Option.map_eq_some_iff.mp hrun
  obtain ⟨_, e, he, _⟩ := hall withheld [] (.settleReplayFencedEntries 0 [7]) s _ _ 0 7 frame (Run.of_foldlM hs)
    ⟨rfl, List.mem_cons_self⟩ rfl (.nil _) rfl rfl
  rw [hentries] at he
  exact List.not_mem_nil he

/-- The withheld flag is read before the mark: an entry that is still there when its message is marked is delivered again. -/
example : ((withheld ++ [Op.markFenceSettled 0 [7]]).foldlM (step config) init).map
    (fun s : InboxDeliveryCoordinator Nat Unit => (s.receive config frame).1) = some (.deliver ⟨0, 5, 7⟩) := by
  decide

end FenceSettlementExample

end FirstTree
