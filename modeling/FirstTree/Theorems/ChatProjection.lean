import Mathlib.Data.List.Induction
import FirstTree.Server.ChatProjection

/-!
# The projection of a chat and the order of its messages

When the projection of a chat is that of its newest message, whatever order the transactions of its messages commit in. The activity
never moves back and the counters add up in every order; the last message is that of the transaction that committed last.
-/

namespace FirstTree

open Projection

/-- The messages of a chat in the order in which they committed, none from before the chat. -/
structure ChatHistory where
  before : ChatProjection
  order : List ProjectedMessage
  afterCreation : ∀ m ∈ order, before.chat.activityAt ≤ m.createdAt

/-- The preview of a message. -/
def previewOf (m : ProjectedMessage) : Option CodeUnits := if m.previewText = [] then none else some (m.previewText.take 200)

/-- The unread counter of an agent. -/
def unreadOf (s : ChatProjection) (agentId : String) : Nat := ((s.userStates agentId).map (·.unreadMentionCount)).getD 0

/-- A message with the greatest creation time. -/
def IsNewest (m : ProjectedMessage) (order : List ProjectedMessage) : Prop :=
  m ∈ order ∧ ∀ m' ∈ order, m'.createdAt ≤ m.createdAt

/-- A message mentions an agent who is human, speaks in the chat and did not send it. -/
def MentionsSpeaker (m : ProjectedMessage) (agentId : String) : Prop :=
  agentId ∈ m.mergedMentions ∧ agentId ≠ m.senderId ∧ isHuman m.tables agentId = true ∧
    ∃ cm ∈ m.tables.memberships, cm.agentId = agentId ∧ cm.accessMode = "speaker"

/-- What the projection of a chat should be after its messages: that of the newest one, and counters that advanced at most once for a
message, and once for a message that mentions the reader. -/
structure ProjectsNewest (h : ChatHistory) (final : ChatProjection) : Prop where
  newest : h.order = [] ∨ ∃ m, IsNewest m h.order ∧ final.chat.lastMessageAt = some m.createdAt.toDate.toTimestamp ∧
    final.chat.lastMessagePreview = previewOf m ∧ final.chat.activityAt.toDate = m.createdAt.toDate
  unread : ∀ agentId, ∃ advance : ProjectedMessage → Nat,
    (∀ m, advance m ≤ 1) ∧ (∀ m, MentionsSpeaker m agentId → advance m = 1) ∧
    unreadOf final agentId = unreadOf h.before agentId + (h.order.map advance).sum

/-- The message that committed last shows the date and the preview of a newest one. -/
def LastIsNewest (order : List ProjectedMessage) : Prop :=
  ∀ last, order.getLast? = some last →
    ∃ m, IsNewest m order ∧ m.createdAt.toDate = last.createdAt.toDate ∧ previewOf m = previewOf last

namespace ChatProjectionAux

variable {now : Date}

/-! ## The last message and the activity -/

/-- A date sent to the database is read back. -/
theorem toDate_toTimestamp (d : Date) : d.toTimestamp.toDate = d := by
  cases d with
  | mk millis valid =>
    simp only [Date.toTimestamp, Timestamp.toDate, Date.micros, Int.mul_ediv_cancel _ (by decide : (1000 : Int) ≠ 0)]

/-- A date sent to the database determines it. -/
theorem toTimestamp_injective {d d' : Date} (h : d.toTimestamp = d'.toTimestamp) : d = d' := by
  rw [← toDate_toTimestamp d, h, toDate_toTimestamp]

/-- Cutting to milliseconds keeps the order. -/
theorem millis_le {a b : Timestamp} (h : a ≤ b) : a.toDate.millis ≤ b.toDate.millis := Int.ediv_le_ediv (by decide) h

/-- What one transaction does to the row of the chat. -/
theorem commit_chat (s : ChatProjection) (m : ProjectedMessage) :
    (commit now s m).chat =
      ⟨some m.createdAt.toDate.toTimestamp, previewOf m, greatest s.chat.activityAt m.createdAt.toDate.toTimestamp⟩ := rfl

/-- The greatest of two timestamps is one of them and not before either. -/
theorem greatest_spec (a b : Timestamp) : (greatest a b = a ∨ greatest a b = b) ∧ a ≤ greatest a b ∧ b ≤ greatest a b := by
  unfold greatest
  split
  · rename_i h
    exact ⟨.inr rfl, le_of_lt (ListCursor.lt_iff.mpr h), le_refl b⟩
  · rename_i h
    exact ⟨.inl rfl, le_refl a, ListCursor.le_iff.mpr (not_lt.mp h)⟩

/-- After the transactions of messages, the last message is that of the last transaction. -/
theorem commitAll_last (now : Date) (s : ChatProjection) {order : List ProjectedMessage} {last : ProjectedMessage}
    (h : order.getLast? = some last) :
    (commitAll now s order).chat.lastMessageAt = some last.createdAt.toDate.toTimestamp ∧
      (commitAll now s order).chat.lastMessagePreview = previewOf last := by
  obtain ⟨init, rfl⟩ := List.getLast?_eq_some_iff.mp h
  rw [commitAll, List.foldl_append, List.foldl_cons, List.foldl_nil, commit_chat]
  exact ⟨rfl, rfl⟩

/-- The activity is that of before or the date of a message, and not before any of them. -/
theorem commitAll_activity (now : Date) (s : ChatProjection) (order : List ProjectedMessage) :
    ((commitAll now s order).chat.activityAt = s.chat.activityAt ∨
        ∃ m ∈ order, (commitAll now s order).chat.activityAt = m.createdAt.toDate.toTimestamp) ∧
      s.chat.activityAt ≤ (commitAll now s order).chat.activityAt ∧
      ∀ m ∈ order, m.createdAt.toDate.toTimestamp ≤ (commitAll now s order).chat.activityAt := by
  induction order using List.reverseRecOn with
  | nil => exact ⟨.inl rfl, le_refl _, fun m hm => absurd hm List.not_mem_nil⟩
  | append_singleton order m ih =>
    have hstep : (commitAll now s (order ++ [m])).chat.activityAt =
        greatest (commitAll now s order).chat.activityAt m.createdAt.toDate.toTimestamp := by
      rw [commitAll, List.foldl_append, List.foldl_cons, List.foldl_nil, commit_chat]
      rfl
    obtain ⟨hone, hle, hall⟩ := ih
    obtain ⟨hgreatest, hleft, hright⟩ := greatest_spec (commitAll now s order).chat.activityAt m.createdAt.toDate.toTimestamp
    rw [hstep]
    refine ⟨?_, hle.trans hleft, fun m' hm' => ?_⟩
    · rcases hgreatest with heq | heq
      · rw [heq]
        rcases hone with hone | ⟨m', hm', hone⟩
        · exact .inl hone
        · exact .inr ⟨m', List.mem_append_left [m] hm', hone⟩
      · exact .inr ⟨m, by simp, heq⟩
    · rcases List.mem_append.mp hm' with hm' | hm'
      · exact (hall m' hm').trans hleft
      · obtain rfl := List.mem_singleton.mp hm'
        exact hright

/-- Dates with one number of milliseconds are the same. -/
theorem date_ext {d d' : Date} (h : d.millis = d'.millis) : d = d' := by
  cases d
  cases d'
  cases h
  rfl

/-- In every order, the activity has the date of the newest message. -/
theorem activity_newest (h : ChatHistory) {m : ProjectedMessage} (hm : IsNewest m h.order) :
    (commitAll now h.before h.order).chat.activityAt.toDate = m.createdAt.toDate := by
  obtain ⟨hone, _, hall⟩ := commitAll_activity now h.before h.order
  have hge := millis_le (hall m hm.1)
  rw [toDate_toTimestamp] at hge
  refine date_ext (le_antisymm ?_ hge)
  rcases hone with heq | ⟨m', hm', heq⟩
  · rw [heq]
    exact millis_le (h.afterCreation m hm.1)
  · rw [heq, toDate_toTimestamp]
    exact millis_le (hm.2 m' hm')

/-! ## Counters -/

/-- How far a message advances the counter of an agent. -/
def advanceOf (agentId : String) (m : ProjectedMessage) : Nat :=
  if agentId ∈ unreadTargets m.tables (projectionInput m) then 1 else 0

/-- One transaction advances a counter by what its message does. -/
theorem unreadOf_commit (s : ChatProjection) (m : ProjectedMessage) (agentId : String) :
    unreadOf (commit now s m) agentId = unreadOf s agentId + advanceOf agentId m := by
  have hrevive : ∀ state : ProjectedUserState, (revive state).unreadMentionCount = state.unreadMentionCount := by
    intro state
    unfold revive
    split <;> rfl
  unfold unreadOf advanceOf commit applyAfterFanOut
  dsimp only
  split
  · cases s.userStates agentId with
    | none => rfl
    | some state => simp [bump, hrevive]
  · cases s.userStates agentId with
    | none => rfl
    | some state => simp [hrevive]

/-- In every order, the counters advance by the sum of what the messages do. -/
theorem unreadOf_commitAll (s : ChatProjection) (order : List ProjectedMessage) (agentId : String) :
    unreadOf (commitAll now s order) agentId = unreadOf s agentId + (order.map (advanceOf agentId)).sum := by
  induction order generalizing s with
  | nil => rfl
  | cons m order ih =>
    have hstep : commitAll now s (m :: order) = commitAll now (commit now s m) order := rfl
    rw [hstep, ih, unreadOf_commit, List.map_cons, List.sum_cons, Nat.add_assoc]

/-- A mentioned human speaker is a target of the message. -/
theorem advanceOf_mentioned {m : ProjectedMessage} {agentId : String} (h : MentionsSpeaker m agentId) : advanceOf agentId m = 1 := by
  obtain ⟨hmention, hsender, hhuman, cm, hcm, rfl, hspeaker⟩ := h
  have hne : m.mergedMentions ≠ [] := List.ne_nil_of_mem hmention
  refine if_pos (List.mem_eraseDups.mpr (List.mem_append_left _ ?_))
  split
  · rename_i hnil
    exact absurd hnil hne
  · refine List.mem_map_of_mem (List.mem_filter.mpr ⟨hcm, ?_⟩)
    simp [isHumanSpeaker, projectionInput, hspeaker, hsender, hhuman, hmention]

end ChatProjectionAux

open ChatProjectionAux

/-- After its messages have committed in some order, a chat shows its newest message if and only if the message that committed last
shows the same date and preview. The activity is that of the newest message and the counters add up in every order. -/
theorem chat_projection_newest_iff (now : Date) (h : ChatHistory) :
    ProjectsNewest h (commitAll now h.before h.order) ↔ LastIsNewest h.order := by
  constructor
  · intro hprojects last hlast
    obtain ⟨hdate, hpreview⟩ := commitAll_last now h.before hlast
    rcases hprojects.newest with hnil | ⟨m, hm, hat, htext, _⟩
    · rw [hnil] at hlast
      cases hlast
    · rw [hdate] at hat
      exact ⟨m, hm, (toTimestamp_injective (Option.some.inj hat)).symm, htext.symm.trans hpreview⟩
  · intro hlast
    refine ⟨?_, fun agentId => ⟨advanceOf agentId, fun m => ?_, fun m => advanceOf_mentioned, unreadOf_commitAll _ _ _⟩⟩
    · cases hl : h.order.getLast? with
      | none => exact .inl (List.getLast?_eq_none_iff.mp hl)
      | some last =>
        obtain ⟨hdate, hpreview⟩ := commitAll_last now h.before hl
        obtain ⟨m, hm, hmdate, hmpreview⟩ := hlast last hl
        exact .inr ⟨m, hm, by rw [hdate, hmdate], by rw [hpreview, hmpreview], activity_newest h hm⟩
    · unfold advanceOf
      split
      · exact Nat.le_refl 1
      · exact Nat.zero_le 1

/-- A message some milliseconds after the epoch, without mentions. -/
def plainMessage (micros : Nat) (h : micros ≤ 5000) (previewText : CodeUnits) : ProjectedMessage :=
  ⟨"a", "human", [], previewText, ⟨micros, by unfold maxDateMillis; omega⟩, false, ⟨[], [], []⟩⟩

/-- The epoch is a date. -/
theorem epoch_inRange : -maxDateMillis ≤ (0 : Int) / 1000 ∧ (0 : Int) / 1000 ≤ maxDateMillis := by decide

/-- A new chat, and two messages of which the older one commits last. -/
def olderLast : ChatHistory where
  before := ⟨⟨none, none, ⟨0, epoch_inRange⟩⟩, fun _ => none⟩
  order := [plainMessage 2000 (by decide) [110], plainMessage 1000 (by decide) [111]]
  afterCreation m hm := by
    rcases List.mem_cons.mp hm with rfl | hm
    · decide
    · rcases List.mem_cons.mp hm with rfl | hm
      · decide
      · cases hm

/-- An older message that commits last takes the preview and the time of the chat back. -/
theorem older_message_shown : ¬ ProjectsNewest olderLast (commitAll ⟨0, by decide⟩ olderLast.before olderLast.order) := by
  intro h
  rcases h.newest with hnil | ⟨m, hm, hat, _⟩
  · cases hnil
  · have hmem := hm.2 _ List.mem_cons_self
    have hmillis := millis_le hmem
    have hdate : m.createdAt.toDate.millis = 1 :=
      (congrArg Date.millis (toTimestamp_injective (Option.some.inj hat))).symm
    rw [hdate] at hmillis
    exact absurd hmillis (by decide)

end FirstTree
