import FirstTree.Lib.AssocList
import FirstTree.Lib.Runs
import FirstTree.Server.ChatAdmission

/-!
# Messages around an admission

Every message reaches every active speaker, by the fan-out of its send or by the backfill of the speaker's admission, in the runs
where no admission commits between the read of the speakers and the insert of the message of one send. The lock on the chat's row
puts a send that has inserted its message wholly before or wholly after an admission.
-/

namespace FirstTree

open Runs Transactions Inbox ChatMembership ChatAdmission

variable {Tx : Type} [DecidableEq Tx]

namespace ChatAdmission

/-- A message that is not among the `PRECEDING_CONTEXT_MAX_ENTRIES` most recent of those before. -/
def Buried (before : List PostedMessage) (m : PostedMessage) : Prop :=
  m ∈ before ∧ precedingContextMaxEntries ≤ before.countP fun m' => decide (m' ≠ m ∧ m.createdAt ≤ m'.createdAt)

/-- There is a row for a message in an agent's inbox. -/
def Delivered (rows : List ChatInboxRow) (agent : ChatAgent) (m : PostedMessage) : Prop :=
  ∃ row ∈ rows, row.inboxId = agent.inboxId ∧ row.messageId = m.id

/-- An agent that is to have the messages of a sender: an active speaker that is not the sender. -/
structure Hears (d : Directory) (membership : Membership) (senderId agentId : String) (agent : ChatAgent) : Prop where
  row : d.agents.lookup agentId = some agent
  speaker : membership.lookup agentId = some .speaker
  active : agent.status = .active
  ne_sender : agentId ≠ senderId

/-- Every active speaker has a row for every message of another, but for messages that are buried among those before its admission. -/
def NoGap (d : Directory) (store : AdmissionStore) : Prop :=
  ∀ m ∈ store.messages, ∀ agentId agent, Hears d store.membership m.senderId agentId agent →
    Delivered store.inbox agent m ∨ Buried ((store.precedes.lookup agentId).getD []) m

/-- Whether a send has read the speakers and not yet inserted its message. -/
def awaitsInsert : SendStatement → Bool
  | .lockChat _ | .insertMessage _ => true
  | _ => false

/-- Whether an admission adds an active speaker, other than the sender, that a send has not read and will not read. -/
def overtakes (d : Directory) (store : AdmissionStore) (join : JoinTx) : AdmissionTx → Bool
  | .send t => awaitsInsert t.next && (admitted store join).any fun agentId =>
      decide (agentId ≠ t.call.message.senderId) && (d.agents.lookup agentId).any fun agent => decide (agent.status = .active)
  | .join _ => false

/-- A step that does not commit an admission that overtakes a send. -/
def overtakesNone (d : Directory) (s : AdmissionSystem Tx) : AdmissionOp Tx → Bool
  | .commit tx =>
    match s.find tx with
    | some (.join join) => (s.others tx).all fun t => !overtakes d s.store join t
    | _ => true
  | _ => true

end ChatAdmission

namespace ChatAdmissionAux

variable {d : Directory}

/-! ## The invariant -/

/-- Everyone who is to have the messages of a sender is among the participants. -/
def Current (d : Directory) (store : AdmissionStore) (senderId : String) (participants : List (String × ChatAgent)) : Prop :=
  ∀ agentId agent, Hears d store.membership senderId agentId agent → (agentId, agent) ∈ participants

/-- A send: what it has read is current until it has fanned out, and it holds the chat's row from the insert on. -/
def SendOk (d : Directory) (store : AdmissionStore) (t : SendTx) : Prop :=
  match t.next with
  | .readParticipants => True
  | .lockChat participants | .insertMessage participants => Current d store t.call.message.senderId participants
  | .fanOut participants =>
    t.chatLock.isSome ∧ t.message = some t.call.message ∧ Current d store t.call.message.senderId participants
  | .updateChat | .done => t.chatLock.isSome ∧ t.message = some t.call.message ∧
      ∀ agentId agent, Hears d store.membership t.call.message.senderId agentId agent → Delivered t.inbox agent t.call.message

/-- The new speakers of an admission have the messages of the chat. -/
def Backfilled (d : Directory) (store : AdmissionStore) (t : JoinTx) : Prop :=
  ∀ agentId ∈ admitted store t, ∀ agent, d.agents.lookup agentId = some agent → ∀ m ∈ store.messages,
    Delivered (store.inbox ++ t.inbox) agent m ∨ Buried store.messages m

/-- An admission: it has written nothing before it holds the chat's row, and its new speakers are backfilled. -/
def JoinOk (d : Directory) (store : AdmissionStore) (t : JoinTx) : Prop :=
  match t.next with
  | .lockAgents | .lockMembership | .lockChat => t.membership = []
  | .readAgents | .readExisting => t.chatLock = some .update ∧ t.membership = []
  | .insertSpeakers existing => t.chatLock = some .update ∧ t.membership = [] ∧ existing = store.membership
  | .readRecent crossing => t.chatLock = some .update ∧ ∀ agentId ∈ admitted store t, agentId ∈ crossing
  | .backfill crossing recent => t.chatLock = some .update ∧ (∀ agentId ∈ admitted store t, agentId ∈ crossing) ∧
      ∃ order, isNewestFirst store.messages order = true ∧ recent = order.take precedingContextMaxEntries
  | .insertWatchers | .dropWatchers | .done => t.chatLock = some .update ∧ Backfilled d store t

/-- An open transaction. -/
def TxOk (d : Directory) (store : AdmissionStore) : AdmissionTx → Prop
  | .send t => SendOk d store t
  | .join t => JoinOk d store t

/-- Two transactions hold no locks on the chat's row that exclude each other. -/
def Apart (a b : AdmissionTx) : Prop :=
  ∀ l l', chatLock a = some l → chatLock b = some l' → ChatRowLock.conflicts l l' = false

/-- The invariant of the runs. -/
abbrev Sound (d : Directory) (s : AdmissionSystem Tx) : Prop := Invariant (NoGap d) (TxOk d) Apart s

theorem conflicts_comm (l l' : ChatRowLock) : ChatRowLock.conflicts l l' = ChatRowLock.conflicts l' l := by
  cases l <;> cases l' <;> rfl

theorem apart_symm (a b : AdmissionTx) (h : Apart a b) : Apart b a := by
  intro l l' hl hl'
  rw [conflicts_comm]
  exact h l' l hl' hl

/-- An admission that holds the chat's row excludes every other lock on it. -/
theorem no_lock_of_update {a b : AdmissionTx} (h : Apart a b) (ha : chatLock a = some .update) : chatLock b = none := by
  cases hb : chatLock b with
  | none => rfl
  | some l => exact absurd (h _ _ ha hb) (by simp [ChatRowLock.conflicts])

theorem no_update_of_lock {a b : AdmissionTx} (h : Apart a b) (ha : (chatLock a).isSome = true) : chatLock b ≠ some .update := by
  intro hb
  rw [no_lock_of_update (apart_symm _ _ h) hb] at ha
  cases ha

/-! ## Parts that do not depend on the store -/

/-- An admission that does not hold the chat's row has read nothing of the store. -/
theorem JoinOk.of_unlocked {store store' : AdmissionStore} {t : JoinTx} (h : JoinOk d store t) (hlock : t.chatLock ≠ some .update) :
    JoinOk d store' t := by
  unfold JoinOk at h ⊢
  split at h <;> first | exact h | exact absurd h.1 hlock

/-- What a send has done depends on the membership only. -/
theorem SendOk.congr {store store' : AdmissionStore} {t : SendTx} (h : SendOk d store t)
    (hmembership : store'.membership = store.membership) : SendOk d store' t := by
  unfold SendOk Current at *
  rw [hmembership]
  exact h

/-! ## Statements -/

theorem mem_speakers {membership : Membership} {agentId : String} {agent : ChatAgent} (hrow : d.agents.lookup agentId = some agent)
    (hspeaker : membership.lookup agentId = some .speaker) : (agentId, agent) ∈ speakers d membership := by
  refine List.mem_map.mpr ⟨⟨agentId, agent⟩, List.mem_filter.mpr ⟨AList.mem_lookup_iff.mp hrow, ?_⟩, rfl⟩
  exact decide_eq_true hspeaker

/-- What the fan-out delivers to. -/
theorem delivered_fanout {call : ChatSend} {participants : List (String × ChatAgent)} {agentId : String} {agent : ChatAgent}
    (hmem : (agentId, agent) ∈ participants) (hne : agentId ≠ call.message.senderId) (hactive : agent.status = .active) :
    Delivered (fanout call participants) agent call.message := by
  refine ⟨_, List.mem_map.mpr ⟨(agentId, agent), List.mem_filter.mpr ⟨List.mem_filter.mpr ⟨hmem, ?_⟩, ?_⟩, rfl⟩, rfl, rfl⟩
  · exact decide_eq_true hne
  · exact decide_eq_true hactive

/-- A statement of a send keeps its part of the invariant. -/
theorem sendOk_run {s : AdmissionSystem Tx} {tx : Tx} {t t' : SendTx} (h : SendOk d s.store t) (hrun : runSend d s tx t = some t') :
    SendOk d s.store t' := by
  unfold runSend at hrun
  unfold SendOk at h
  split at hrun
  · next hnext =>
    split at hrun
    · obtain rfl := Option.some.inj hrun
      have hcurrent : Current d s.store t.call.message.senderId (speakers d s.store.membership) :=
        fun agentId agent hears => mem_speakers hears.row hears.speaker
      unfold SendOk
      cases t.call.locksChatRow <;> exact hcurrent
    · cases hrun
  · next participants hnext =>
    split at hrun
    · obtain rfl := Option.some.inj hrun
      rw [hnext] at h
      exact h
    · cases hrun
  · next participants hnext =>
    split at hrun
    · obtain rfl := Option.some.inj hrun
      rw [hnext] at h
      exact ⟨rfl, rfl, h⟩
    · cases hrun
  · next participants hnext =>
    dsimp only at hrun
    split at hrun
    · obtain rfl := Option.some.inj hrun
      rw [hnext] at h
      exact ⟨h.1, h.2.1, fun agentId agent hears => delivered_fanout (h.2.2 agentId agent hears) hears.ne_sender hears.active⟩
    · cases hrun
  · next hnext =>
    split at hrun
    · obtain rfl := Option.some.inj hrun
      rw [hnext] at h
      exact ⟨rfl, h.2⟩
    · cases hrun
  · cases hrun

/-- The agents that writes make speakers. -/
theorem mem_admitted {store : AdmissionStore} {t : JoinTx} {agentId : String} :
    agentId ∈ admitted store t ↔ (agentId, some .speaker) ∈ t.membership ∧ store.membership.lookup agentId ≠ some .speaker := by
  simp only [admitted, List.mem_filterMap, Option.ite_none_right_eq_some, Option.some.injEq, Prod.exists]
  constructor
  · rintro ⟨_, _, hmem, ⟨rfl, hne⟩, rfl⟩
    exact ⟨hmem, hne⟩
  · rintro ⟨hmem, hne⟩
    exact ⟨agentId, some .speaker, hmem, ⟨rfl, hne⟩, rfl⟩

/-- Writes that make no speakers admit no one more. -/
theorem admitted_append {store : AdmissionStore} {t : JoinTx} {writes : List (Write String AccessMode)}
    (h : ∀ w ∈ writes, w.2 ≠ some .speaker) (next : JoinStatement) :
    admitted store { t with membership := t.membership ++ writes, next := next } = admitted store t := by
  rw [admitted, List.filterMap_append]
  have hnone : (writes.filterMap fun w =>
      if w.2 = some .speaker ∧ store.membership.lookup w.1 ≠ some .speaker then some w.1 else none) = [] :=
    List.filterMap_eq_nil_iff.mpr fun w hw => if_neg fun hc => h w hw hc.1
  rw [hnone, List.append_nil, admitted]

theorem insertWatchers_ne_speaker (d : Directory) (rows : Membership) : ∀ w ∈ insertWatchers d rows, w.2 ≠ some .speaker := by
  intro w hw
  obtain ⟨human, _, rfl⟩ := List.mem_map.mp hw
  nofun

theorem dropWatchers_ne_speaker (d : Directory) (rows : Membership) : ∀ w ∈ dropWatchers d rows, w.2 ≠ some .speaker := by
  intro w hw
  obtain ⟨human, _, rfl⟩ := List.mem_map.mp hw
  nofun

/-- Whom the insert of speaker rows writes. -/
theorem mem_insertSpeakers {options : AddChatParticipantsOptions} {participants : List String} {rows : Membership}
    {writes : List (Write String AccessMode)} (h : insertSpeakers options participants rows = some writes) {agentId : String}
    {new : Option AccessMode} (hmem : (agentId, new) ∈ writes) :
    agentId ∈ participants ∧ (options.upgradeWatcherToSpeaker = true ∨ rows.lookup agentId = none) := by
  unfold insertSpeakers at h
  split at h
  · next hupgrade =>
    split at h
    · obtain rfl := Option.some.inj h
      obtain ⟨p, hp, heq⟩ := List.mem_map.mp hmem
      obtain ⟨rfl, -⟩ := Prod.mk.inj heq
      exact ⟨hp, .inl hupgrade⟩
    · cases h
  · split at h
    · obtain rfl := Option.some.inj h
      obtain ⟨p, hp, heq⟩ := List.mem_map.mp hmem
      obtain ⟨rfl, -⟩ := Prod.mk.inj heq
      obtain ⟨hp, hnone⟩ := List.mem_filter.mp hp
      exact ⟨hp, .inr (Option.isNone_iff_eq_none.mp hnone)⟩
    · split at h
      · next hfree =>
        obtain rfl := Option.some.inj h
        obtain ⟨p, hp, heq⟩ := List.mem_map.mp hmem
        obtain ⟨rfl, -⟩ := Prod.mk.inj heq
        exact ⟨hp, .inr (Option.isNone_iff_eq_none.mp (hfree.2 p hp))⟩
      · cases h

/-- A participant that was no speaker and is written crosses into speaker. -/
theorem mem_crossing {options : AddChatParticipantsOptions} {participants : List String} {existing : Membership} {agentId : String}
    (hmem : agentId ∈ participants) (hnew : options.upgradeWatcherToSpeaker = true ∨ existing.lookup agentId = none)
    (hne : existing.lookup agentId ≠ some .speaker) : agentId ∈ crossingIntoSpeaker options participants existing := by
  refine List.mem_filter.mpr ⟨hmem, ?_⟩
  cases hrow : existing.lookup agentId with
  | none => rfl
  | some mode =>
    cases mode with
    | speaker => exact absurd hrow hne
    | watcher =>
      rcases hnew with hupgrade | hnone
      · exact hupgrade
      · rw [hrow] at hnone
        cases hnone

/-- A message that is not among the first of an order of the newest first is buried. -/
theorem buried_of_notMem {messages order : List PostedMessage} (horder : isNewestFirst messages order = true) {m : PostedMessage}
    (hm : m ∈ messages) (hnot : m ∉ order.take precedingContextMaxEntries) : Buried messages m := by
  rw [isNewestFirst, Bool.and_eq_true, decide_eq_true_eq, decide_eq_true_eq] at horder
  obtain ⟨hperm, hsorted⟩ := horder
  refine ⟨hm, ?_⟩
  have hsplit : m ∈ order.take precedingContextMaxEntries ++ order.drop precedingContextMaxEntries := by
    rw [List.take_append_drop]
    exact hperm.mem_iff.mpr hm
  have hdrop : m ∈ order.drop precedingContextMaxEntries := (List.mem_append.mp hsplit).resolve_left hnot
  rw [← List.take_append_drop precedingContextMaxEntries order] at hsorted
  have hlater : ∀ m' ∈ order.take precedingContextMaxEntries, decide (m' ≠ m ∧ m.createdAt ≤ m'.createdAt) = true := by
    intro m' hm'
    refine decide_eq_true ⟨?_, (List.pairwise_append.mp hsorted).2.2 m' hm' m hdrop⟩
    rintro rfl
    exact hnot hm'
  have hlength : (order.take precedingContextMaxEntries).length = precedingContextMaxEntries := by
    have hpos := List.length_pos_of_mem hdrop
    rw [List.length_drop] at hpos
    rw [List.length_take]
    omega
  calc precedingContextMaxEntries
      = (order.take precedingContextMaxEntries).countP fun m' => decide (m' ≠ m ∧ m.createdAt ≤ m'.createdAt) := by
        rw [List.countP_eq_length.mpr hlater, hlength]
    _ ≤ order.countP fun m' => decide (m' ≠ m ∧ m.createdAt ≤ m'.createdAt) := (List.take_sublist _ _).countP_le
    _ = messages.countP fun m' => decide (m' ≠ m ∧ m.createdAt ≤ m'.createdAt) := hperm.countP_eq _

/-- What the backfill of new speakers delivers: a row that it does not insert is there already. -/
theorem delivered_backfill {store : AdmissionStore} {crossing : List String} {recent : List PostedMessage} {agentId : String}
    {agent : ChatAgent} {m : PostedMessage} (hmem : agentId ∈ crossing) (hrow : d.agents.lookup agentId = some agent)
    (hm : m ∈ recent) :
    Delivered (store.inbox ++ newDeliveries store (backfillRows d crossing recent)) agent m := by
  have hback : (⟨agent.inboxId, m.id, false⟩ : ChatInboxRow) ∈ backfillRows d crossing recent :=
    List.mem_flatMap.mpr ⟨agent, List.mem_filterMap.mpr ⟨agentId, hmem, hrow⟩, List.mem_map.mpr ⟨m, hm, rfl⟩⟩
  by_cases hnew : (store.inbox.all fun other => decide ((other.inboxId, other.messageId) ≠ (agent.inboxId, m.id))) = true
  · exact ⟨_, List.mem_append_right _ (List.mem_filter.mpr ⟨hback, hnew⟩), rfl, rfl⟩
  · obtain ⟨other, hother, hkey⟩ : ∃ other ∈ store.inbox, (other.inboxId, other.messageId) = (agent.inboxId, m.id) := by
      simpa [List.all_eq_true] using hnew
    exact ⟨other, List.mem_append_left _ hother, congrArg Prod.fst hkey, congrArg Prod.snd hkey⟩

/-- A statement of an admission keeps its part of the invariant. -/
theorem joinOk_run {s : AdmissionSystem Tx} {tx : Tx} {t t' : JoinTx} {order : List PostedMessage} (h : JoinOk d s.store t)
    (hrun : runJoin d s tx t order = some t') : JoinOk d s.store t' := by
  unfold runJoin at hrun
  unfold JoinOk at h
  split at hrun
  · next hnext =>
    split at hrun
    · obtain rfl := Option.some.inj hrun
      rw [hnext] at h
      exact h
    · cases hrun
  · next hnext =>
    split at hrun
    · obtain rfl := Option.some.inj hrun
      rw [hnext] at h
      exact h
    · cases hrun
  · next hnext =>
    split at hrun
    · obtain rfl := Option.some.inj hrun
      rw [hnext] at h
      exact ⟨rfl, h⟩
    · cases hrun
  · next hnext =>
    split at hrun
    · obtain rfl := Option.some.inj hrun
      rw [hnext] at h
      exact h
    · cases hrun
  · next hnext =>
    obtain rfl := Option.some.inj hrun
    rw [hnext] at h
    refine ⟨h.1, h.2, ?_⟩
    rw [seen, h.2, applyWrites_nil]
  · next existing hnext =>
    obtain ⟨writes, hwrites, rfl⟩ := Option.map_eq_some_iff.mp hrun
    rw [hnext] at h
    obtain ⟨hlock, hempty, rfl⟩ := h
    rw [seen, hempty, applyWrites_nil] at hwrites
    have hcross : ∀ agentId ∈ admitted s.store { t with membership := t.membership ++ writes },
        agentId ∈ crossingIntoSpeaker t.call.options t.call.participants s.store.membership := by
      intro agentId hmem
      obtain ⟨hwrite, hne⟩ := mem_admitted.mp hmem
      rw [hempty] at hwrite
      obtain ⟨hp, hnew⟩ := mem_insertSpeakers hwrites hwrite
      exact mem_crossing hp hnew hne
    unfold JoinOk
    cases hc : (crossingIntoSpeaker t.call.options t.call.participants s.store.membership).isEmpty with
    | true =>
      simp only [hc, ↓reduceIte]
      rw [List.isEmpty_iff.mp hc] at hcross
      exact ⟨hlock, fun agentId hmem => absurd (hcross agentId hmem) List.not_mem_nil⟩
    | false =>
      simp only [hc, Bool.false_eq_true, ↓reduceIte]
      exact ⟨hlock, hcross⟩
  · next crossing hnext =>
    split at hrun
    · next horder =>
      obtain rfl := Option.some.inj hrun
      rw [hnext] at h
      exact ⟨h.1, h.2, order, horder, rfl⟩
    · cases hrun
  · next crossing recent hnext =>
    obtain rfl := Option.some.inj hrun
    rw [hnext] at h
    obtain ⟨hlock, hcross, newest, hnewest, rfl⟩ := h
    refine ⟨hlock, fun agentId hmem agent hrow m hm => ?_⟩
    by_cases hrecent : m ∈ newest.take precedingContextMaxEntries
    · exact .inl (delivered_backfill (hcross agentId hmem) hrow hrecent)
    · exact .inr (buried_of_notMem hnewest hm hrecent)
  · next hnext =>
    obtain rfl := Option.some.inj hrun
    rw [hnext] at h
    refine ⟨h.1, fun agentId hmem => h.2 agentId ?_⟩
    rwa [admitted_append (insertWatchers_ne_speaker _ _)] at hmem
  · next hnext =>
    obtain rfl := Option.some.inj hrun
    rw [hnext] at h
    refine ⟨h.1, fun agentId hmem => h.2 agentId ?_⟩
    rwa [admitted_append (dropWatchers_ne_speaker _ _)] at hmem
  · cases hrun

/-! ## Locks -/

/-- A lock that a statement takes is the one held before, or excludes none that another transaction holds. -/
def TakesFree (s : AdmissionSystem Tx) (tx : Tx) (old new : AdmissionTx) : Prop :=
  chatLock new = chatLock old ∨ ∃ l, chatLock new = some l ∧ chatFree s tx l = true

theorem takesFree_strengthen {s : AdmissionSystem Tx} {tx : Tx} {held : Option ChatRowLock} {l : ChatRowLock}
    (h : chatFree s tx l = true) :
    some (strengthen held l) = held ∨ ∃ l', some (strengthen held l) = some l' ∧ chatFree s tx l' = true := by
  unfold strengthen
  split
  · exact .inl rfl
  · exact .inr ⟨l, rfl, h⟩

theorem takesFree_runSend {s : AdmissionSystem Tx} {tx : Tx} {t t' : SendTx} (hrun : runSend d s tx t = some t') :
    TakesFree s tx (.send t) (.send t') := by
  unfold runSend at hrun
  split at hrun <;> try cases hrun
  · split at hrun
    · obtain rfl := Option.some.inj hrun
      exact .inl rfl
    · cases hrun
  · split at hrun
    · next hfree =>
      obtain rfl := Option.some.inj hrun
      exact .inr ⟨_, rfl, hfree⟩
    · cases hrun
  · split at hrun
    · next hfree =>
      obtain rfl := Option.some.inj hrun
      exact takesFree_strengthen (Bool.and_eq_true_iff.mp hfree).1
    · cases hrun
  · dsimp only at hrun
    split at hrun
    · obtain rfl := Option.some.inj hrun
      exact .inl rfl
    · cases hrun
  · split at hrun
    · next hfree =>
      obtain rfl := Option.some.inj hrun
      exact takesFree_strengthen hfree
    · cases hrun

theorem takesFree_runJoin {s : AdmissionSystem Tx} {tx : Tx} {t t' : JoinTx} {order : List PostedMessage}
    (hrun : runJoin d s tx t order = some t') : TakesFree s tx (.join t) (.join t') := by
  unfold runJoin at hrun
  split at hrun
  case h_3 =>
    split at hrun
    · next hfree =>
      obtain rfl := Option.some.inj hrun
      exact .inr ⟨_, rfl, hfree⟩
    · cases hrun
  case h_6 =>
    obtain ⟨writes, _, rfl⟩ := Option.map_eq_some_iff.mp hrun
    exact .inl rfl
  case h_11 => cases hrun
  all_goals
    first
      | obtain rfl := Option.some.inj hrun
        exact .inl rfl
      | split at hrun
        · obtain rfl := Option.some.inj hrun
          exact .inl rfl
        · cases hrun

/-- A statement leaves a transaction apart from the others. -/
theorem TakesFree.apart {s : AdmissionSystem Tx} {tx : Tx} {old new : AdmissionTx} (h : TakesFree s tx old new) {other : AdmissionTx}
    (hother : other ∈ s.others tx) (hapart : Apart old other) : Apart new other := by
  intro l l' hl hl'
  rcases h with hsame | ⟨l₁, hl₁, hfree⟩
  · exact hapart l l' (hsame ▸ hl) hl'
  · obtain rfl := Option.some.inj (hl.symm.trans hl₁)
    have hheld := List.all_eq_true.mp hfree other hother
    rw [hl', Option.all_some, Bool.not_eq_true'] at hheld
    exact (conflicts_comm l l').trans hheld

/-! ## Commits -/

/-- A row keeps being there. -/
theorem Delivered.append {rows : List ChatInboxRow} {agent : ChatAgent} {m : PostedMessage} (h : Delivered rows agent m)
    (more : List ChatInboxRow) : Delivered (rows ++ more) agent m := by
  obtain ⟨row, hrow, hkey⟩ := h
  exact ⟨row, List.mem_append_left _ hrow, hkey⟩

/-- What a key is after writes, one of them has written, or it was before. -/
theorem mem_of_lookup_applyWrites {rows : Membership} {writes : List (Write String AccessMode)} {agentId : String}
    {new : Option AccessMode} (h : (applyWrites rows writes).lookup agentId = new) :
    (agentId, new) ∈ writes ∨ rows.lookup agentId = new := by
  induction writes generalizing rows with
  | nil => exact .inr h
  | cons w writes ih =>
    rcases ih h with hmem | hrow
    · exact .inl (List.mem_cons_of_mem _ hmem)
    · rw [lookup_applyWrite] at hrow
      split at hrow
      · next hkey =>
        obtain rfl := hkey
        obtain rfl := hrow
        exact .inl List.mem_cons_self
      · exact .inr hrow

/-- A speaker after an admission was one before, or is admitted. -/
theorem speaker_or_admitted {store : AdmissionStore} {t : JoinTx} {agentId : String}
    (h : (seen store t).lookup agentId = some .speaker) :
    store.membership.lookup agentId = some .speaker ∨ agentId ∈ admitted store t := by
  by_cases hold : store.membership.lookup agentId = some .speaker
  · exact .inl hold
  · exact .inr (mem_admitted.mpr ⟨(mem_of_lookup_applyWrites h).resolve_right hold, hold⟩)

/-- A send that commits leaves no gap. -/
theorem noGap_send {store : AdmissionStore} {t : SendTx} (hs : NoGap d store) (ht : SendOk d store t) (hnext : t.next = .done) :
    NoGap d { store with messages := store.messages ++ t.message.toList, inbox := store.inbox ++ t.inbox } := by
  rw [SendOk, hnext] at ht
  obtain ⟨_, hmessage, hreach⟩ := ht
  intro m hm agentId agent hears
  rw [hmessage] at hm
  rcases List.mem_append.mp hm with hold | hnew
  · exact (hs m hold agentId agent hears).imp_left fun hdelivered => Delivered.append hdelivered _
  · obtain rfl : m = t.call.message := by simpa using hnew
    obtain ⟨row, hrow, hkey⟩ := hreach agentId agent hears
    exact .inl ⟨row, List.mem_append_right _ hrow, hkey⟩

/-- An admission that commits leaves no gap. -/
theorem noGap_join {store : AdmissionStore} {t : JoinTx} (hs : NoGap d store) (hback : Backfilled d store t) :
    NoGap d
      { membership := seen store t
        messages := store.messages
        inbox := store.inbox ++ t.inbox
        precedes := (admitted store t).foldl (fun precedes agentId => precedes.insert agentId store.messages) store.precedes } := by
  intro m hm agentId agent hears
  dsimp only
  rw [AssocList.lookup_foldl_insert]
  by_cases hmem : agentId ∈ admitted store t
  · rw [if_pos hmem]
    exact hback agentId hmem agent hears.row m hm
  · rw [if_neg hmem]
    have hold := (speaker_or_admitted hears.speaker).resolve_right hmem
    have hreached := hs m hm agentId agent ⟨hears.row, hold, hears.active, hears.ne_sender⟩
    exact hreached.imp_left fun hdelivered => Delivered.append hdelivered _

/-- A send that an admission does not overtake keeps its part of the invariant when the admission commits. -/
theorem sendOk_join {store : AdmissionStore} {join : JoinTx} {t : SendTx} {store' : AdmissionStore} (ht : SendOk d store t)
    (hunlocked : t.chatLock = none) (hovertakes : overtakes d store join (.send t) = false)
    (hmembership : store'.membership = seen store join) : SendOk d store' t := by
  have hcurrent : awaitsInsert t.next = true → ∀ participants, Current d store t.call.message.senderId participants →
      Current d store' t.call.message.senderId participants := by
    intro hawaits participants hparticipants agentId agent hears
    have hspeaker := hears.speaker
    rw [hmembership] at hspeaker
    rcases speaker_or_admitted hspeaker with hold | hmem
    · exact hparticipants agentId agent ⟨hears.row, hold, hears.active, hears.ne_sender⟩
    · -- An admitted agent that is to have the message is one that the admission may not add.
      rw [overtakes, hawaits, Bool.true_and] at hovertakes
      have hnone := List.any_eq_false.mp hovertakes agentId hmem
      rw [hears.row, Option.any_some, decide_eq_true hears.active, decide_eq_true hears.ne_sender] at hnone
      exact absurd rfl hnone
  unfold SendOk at ht ⊢
  split at ht
  · trivial
  · next participants hnext => exact hcurrent (by rw [hnext]; rfl) participants ht
  · next participants hnext => exact hcurrent (by rw [hnext]; rfl) participants ht
  all_goals
    rw [hunlocked] at ht
    cases ht.1

/-! ## Steps -/

/-- Every step that does not commit an admission that overtakes a send keeps the invariant. -/
theorem sound_step {s s' : AdmissionSystem Tx} {op : AdmissionOp Tx} (hs : Sound d s) (hguard : overtakesNone d s op = true)
    (hstep : step d s op = some s') : Sound d s' := by
  have hapart : ∀ {tx t}, s.find tx = some t → ∀ other ∈ s.others tx, Apart t other := by
    intro tx t hfind other hother
    obtain ⟨k, hne, hk⟩ := System.mem_others.mp hother
    exact hs.apart tx k t other (Ne.symm hne) hfind hk
  cases op with
  | sendMessage tx call =>
    simp only [step] at hstep
    split at hstep
    · obtain rfl := Option.some.inj hstep
      refine hs.put apart_symm hs.store ?_ (fun _ _ ho => ho) ?_
      · rintro _ ⟨⟩
        trivial
      · rintro _ ⟨⟩ other _ l l' hl
        cases hl
    · cases hstep
  | addChatParticipants tx call =>
    simp only [step] at hstep
    split at hstep
    · obtain rfl := Option.some.inj hstep
      refine hs.put apart_symm hs.store ?_ (fun _ _ ho => ho) ?_
      · rintro _ ⟨⟩
        exact rfl
      · rintro _ ⟨⟩ other _ l l' hl
        cases hl
    · cases hstep
  | run tx order =>
    obtain ⟨t, hfind, hnext⟩ := Option.bind_eq_some_iff.mp hstep
    cases t with
    | send t =>
      obtain ⟨t', hrun, rfl⟩ := Option.map_eq_some_iff.mp hnext
      refine hs.put apart_symm hs.store ?_ (fun _ _ ho => ho) ?_
      · rintro _ ⟨⟩
        exact sendOk_run (hs.own tx _ hfind) hrun
      · rintro _ ⟨⟩ other hother
        exact (takesFree_runSend hrun).apart hother (hapart hfind other hother)
    | join t =>
      obtain ⟨t', hrun, rfl⟩ := Option.map_eq_some_iff.mp hnext
      refine hs.put apart_symm hs.store ?_ (fun _ _ ho => ho) ?_
      · rintro _ ⟨⟩
        exact joinOk_run (hs.own tx _ hfind) hrun
      · rintro _ ⟨⟩ other hother
        exact (takesFree_runJoin hrun).apart hother (hapart hfind other hother)
  | commit tx =>
    obtain ⟨t, hfind, hput⟩ := Option.bind_eq_some_iff.mp hstep
    obtain ⟨store, hcommit, rfl⟩ := Option.map_eq_some_iff.mp hput
    have hthis := hs.own tx _ hfind
    cases t with
    | send t =>
      dsimp only [commitTx] at hcommit
      split at hcommit
      · next hnext =>
        obtain rfl := Option.some.inj hcommit
        have hlocked : t.chatLock.isSome = true := by
          rw [TxOk, SendOk, hnext] at hthis
          exact hthis.1
        refine hs.put apart_symm (noGap_send hs.store hthis hnext) (by simp) (fun other hother ho => ?_) (by simp)
        cases other with
        | send other => exact ho.congr rfl
        | join other => exact ho.of_unlocked (no_update_of_lock (hapart hfind _ hother) hlocked)
      · cases hcommit
    | join t =>
      dsimp only [commitTx] at hcommit
      split at hcommit
      · next hnext =>
        obtain rfl := Option.some.inj hcommit
        rw [TxOk, JoinOk, hnext] at hthis
        refine hs.put apart_symm (noGap_join hs.store hthis.2) (by simp) (fun other hother ho => ?_) (by simp)
        have hunlocked := no_lock_of_update (hapart hfind _ hother) hthis.1
        cases other with
        | send other =>
          rw [overtakesNone, hfind] at hguard
          exact sendOk_join ho hunlocked (by simpa using List.all_eq_true.mp hguard _ hother) rfl
        | join other => exact ho.of_unlocked fun hlock => Option.some_ne_none _ (hlock.symm.trans hunlocked)
      · cases hcommit
  | rollback tx =>
    obtain ⟨t, _, rfl⟩ := Option.map_eq_some_iff.mp hstep
    exact hs.put apart_symm hs.store (by simp) (fun _ _ ho => ho) (by simp)

end ChatAdmissionAux

open ChatAdmissionAux

/-- From a chat without a gap, a run in which no admission overtakes a send leaves no gap. -/
theorem admissions_leave_no_gap {d : Directory} {store : AdmissionStore} (hstart : NoGap d store) {ops : List (AdmissionOp Tx)}
    {s : AdmissionSystem Tx}
    (h : Run (Guarded (fun s op => overtakesNone d s op = true) (ofPartial (ChatAdmission.step d))) (System.idle store) ops s) :
    NoGap d s.store := by
  have hs : Sound d s := h.invariant (fun _ _ _ hs hstep => sound_step hs hstep.1 hstep.2) (Invariant.idle hstart)
  exact hs.store

namespace ChatAdmissionExample

/-- Two agents of one member. -/
def directory : Directory where
  agents := ((∅ : Rows String ChatAgent).insert "a" ⟨false, "inbox-a", "m", .active⟩).insert "b" ⟨false, "inbox-b", "m", .active⟩
  members := (∅ : Rows String ChatMember).insert "m" ⟨"h", true⟩

/-- A chat in which the first agent speaks. -/
def chat : AdmissionStore :=
  { membership := (∅ : Membership).insert "a" .speaker, messages := [], inbox := [], precedes := ∅ }

/-- The first agent sends a message. -/
def hello : ChatSend := { message := ⟨"hello", "a", 1⟩, integrationSender := false, wakes := [], locksChatRow := false }

/-- The second agent is invited. -/
def invite : ChatJoin := { participants := ["b"], options := ⟨true, false, false⟩ }

/-- An admission runs to its end; `order` is that of the messages. -/
def runJoinOps (tx : Nat) (order : List PostedMessage) : List (AdmissionOp Nat) :=
  List.replicate 10 (AdmissionOp.run tx order) ++ [AdmissionOp.commit tx]

/-- The send reads the speakers, the admission takes place, and the send goes on. -/
def overtaken : List (AdmissionOp Nat) :=
  [AdmissionOp.sendMessage 0 hello, AdmissionOp.run 0 [], AdmissionOp.addChatParticipants 1 invite] ++ runJoinOps 1 [] ++
    [AdmissionOp.run 0 [], AdmissionOp.run 0 [], AdmissionOp.run 0 [], AdmissionOp.commit 0]

/-- The send takes place before the admission. -/
def inTurn : List (AdmissionOp Nat) :=
  [AdmissionOp.sendMessage 0 hello, AdmissionOp.run 0 [], AdmissionOp.run 0 [], AdmissionOp.run 0 [], AdmissionOp.run 0 [],
    AdmissionOp.commit 0, AdmissionOp.addChatParticipants 1 invite] ++ runJoinOps 1 [hello.message]

theorem noGap_chat : NoGap directory chat := fun _ hm => absurd hm List.not_mem_nil

/-- An agent that is admitted after a message has it from the backfill. -/
theorem admissions_leave_no_gap_in_turn : ∃ s : AdmissionSystem Nat,
    s.store.inbox = [⟨"inbox-b", "hello", false⟩] ∧ NoGap directory s.store := by
  have hout : (inTurn.foldlM (fun s op => if overtakesNone directory s op = true then ChatAdmission.step directory s op else none)
      (System.idle chat)).map (fun s => s.store.inbox) = some [⟨"inbox-b", "hello", false⟩] := by
    decide
  obtain ⟨s, hs, hinbox⟩ := Option.map_eq_some_iff.mp hout
  exact ⟨s, hinbox, admissions_leave_no_gap noGap_chat (Run.guarded_of_foldlM hs)⟩

/-- What a run leaves when all is committed: the messages, the inbox rows, how the second agent is in the chat, and what precedes
it. -/
structure Outcome where
  messages : List PostedMessage
  inbox : List ChatInboxRow
  mode : Option AccessMode
  precedes : Option (List PostedMessage)
  committed : Bool
  deriving DecidableEq

/-- The outcome of a run. -/
def outcome (s : AdmissionSystem Nat) : Outcome :=
  ⟨s.store.messages, s.store.inbox, s.store.membership.lookup "b", s.store.precedes.lookup "b", s.active.entries.isEmpty⟩

/-- What was to hold of every run: once no transaction is open, there is no gap. -/
def EveryMessageReaches : Prop :=
  ∀ (d : Directory) (store : AdmissionStore) (ops : List (AdmissionOp Nat)) (s : AdmissionSystem Nat), NoGap d store →
    Run (ofPartial (ChatAdmission.step d)) (System.idle store) ops s → s.Quiescent → NoGap d s.store

/-- A message whose speakers were read before an admission and that is inserted after it reaches its inbox by neither way. -/
theorem every_message_reaches_false : ¬ EveryMessageReaches := by
  intro h
  have hout : (overtaken.foldlM (ChatAdmission.step directory) (System.idle chat)).map outcome =
      some ⟨[hello.message], [], some .speaker, some [], true⟩ := by
    decide
  obtain ⟨s, hs, heq⟩ := Option.map_eq_some_iff.mp hout
  simp only [outcome, Outcome.mk.injEq] at heq
  obtain ⟨hmessages, hinbox, hspeaker, hprecedes, hactive⟩ := heq
  have hquiescent := System.quiescent_of_nil (List.isEmpty_iff.mp hactive)
  have hgap := h directory chat overtaken s noGap_chat (Run.of_foldlM hs) hquiescent hello.message
    (by rw [hmessages]; exact List.mem_cons_self) "b" ⟨false, "inbox-b", "m", .active⟩ ⟨by decide, hspeaker, rfl, by decide⟩
  rw [hinbox, hprecedes] at hgap
  rcases hgap with ⟨row, hrow, _⟩ | ⟨hmem, _⟩
  · exact List.not_mem_nil hrow
  · exact List.not_mem_nil hmem

end ChatAdmissionExample

end FirstTree
