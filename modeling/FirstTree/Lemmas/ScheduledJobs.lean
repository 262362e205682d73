import FirstTree.Lib.AssocList
import FirstTree.Lib.Scripts
import FirstTree.Server.ScheduledJobs

/-!
# The discipline of the scheduled jobs

What holds of the committed jobs and their triggers, what every commit keeps, what the locks protect, and what a commit of each
kind does for the others: a change of a job, its trigger, its creation and deletion, the pause of an owner's jobs, and the writes
of other services.
-/

namespace FirstTree

open Transactions Scripts ScheduledJobs

/-! ## What holds of the jobs -/

/-- A message is a trigger of the job for the instant. -/
def TriggerOf (jobId messageId : String) (at_ : Int) (s : CronStore) : Prop :=
  ∃ message trigger, s.messages.lookup messageId = some message ∧ message.cronTrigger = some trigger ∧ trigger.jobId = jobId ∧
    trigger.scheduledFor = at_

/-- The entry of an inbox is acknowledged. -/
def Acked (key : String × String × String) (s : CronStore) : Prop := s.inbox.lookup key = some ⟨.acked, true⟩

/-- A job is active when it has a next run, and then it has no reason to be paused. -/
structure JobShape (row : CronJobRow) : Prop where
  nextRunAt : row.state = .active ↔ row.nextRunAt.isSome = true
  stateReason : row.state = .active ↔ row.stateReason = none
  revision : 0 < row.revision

/-- No occurrence of a job has two triggers. -/
def FiredOnce (s : CronStore) : Prop :=
  ∀ id at_ m m', TriggerOf id m at_ s → TriggerOf id m' at_ s → m = m'

/-- The next run of a job is later than every occurrence it has a trigger for. -/
def FiredBefore (s : CronStore) : Prop :=
  ∀ id row next, s.jobs.lookup id = some row → row.nextRunAt = some next → ∀ m at_, TriggerOf id m at_ s → at_ < next

/-- Each trigger of a job but the last is acknowledged. -/
def OneOutstanding (s : CronStore) : Prop :=
  ∀ id row, s.jobs.lookup id = some row → ∀ m at_, TriggerOf id m at_ s →
    row.lastTriggerMessageId = some m ∨ ∃ inboxId, Acked (inboxId, m, row.controlChatId) s

/-- No job is active whose owner has deleted the chat. -/
def OwnersEngaged (s : CronStore) : Prop :=
  ∀ id row member, s.jobs.lookup id = some row → row.state = .active → s.members.lookup row.ownerMemberId = some member →
    s.engagement.lookup (row.controlChatId, member.agentId) ≠ some .deleted

/-- The committed rows are in order. -/
structure ScheduleOk (s : CronStore) : Prop where
  shape : ∀ id row, s.jobs.lookup id = some row → JobShape row
  once : FiredOnce s
  before : FiredBefore s
  past : ∀ id m at_, TriggerOf id m at_ s → at_ ≤ s.clock ∧ (s.identities.lookup id).isSome = true
  outstanding : OneOutstanding s
  identity : ∀ id row, s.jobs.lookup id = some row → s.identities.lookup id = some row.toCronJobIdentity
  owner : ∀ id row, s.jobs.lookup id = some row → ∃ member, s.members.lookup row.ownerMemberId = some member
  engaged : OwnersEngaged s
  humans : ∀ id id' m m', s.members.lookup id = some m → s.members.lookup id' = some m' → m.agentId = m'.agentId → id = id'

/-! ## What a commit may do -/

/-- What the revision of a job counts the changes of. -/
def CronJobRow.configuration (row : CronJobRow) :
    String × String × String × String × CronJobState × Option CronJobPauseReason :=
  (row.name, row.prompt, row.cronExpression, row.timezone, row.state, row.stateReason)

/-- A commit keeps the identity of a job, and raises its revision by one or leaves its configuration. -/
def Revised (s t : CronStore) : Prop :=
  ∀ id row row', s.jobs.lookup id = some row → t.jobs.lookup id = some row' →
    row'.toCronJobIdentity = row.toCronJobIdentity ∧
      (row'.revision = row.revision + 1 ∨ row'.revision = row.revision ∧ row'.configuration = row.configuration)

/-- A member is active and manages an active agent, and both the human agent and the agent speak in the chat. -/
structure RouteAccess (chatId agentId memberId humanAgentId : String) (s : CronStore) : Prop where
  member : ∃ row, s.members.lookup memberId = some row ∧ row.status = .active
  agent : ∃ row, s.agents.lookup agentId = some row ∧ row.status = .active ∧ row.managerId = memberId
  human : isSpeaker chatId humanAgentId s = true
  speaker : isSpeaker chatId agentId s = true

/-- A commit changes one job alone, at the revision its caller has read; and the caller is its owner, who has access to the route. -/
structure Licence (input : CronJobTarget) (s t : CronStore) : Prop where
  revision : ∃ row, s.jobs.lookup input.jobId = some row ∧ row.revision = input.expectedRevision ∧
    (∀ ownerMemberId, input.ownerMemberId = some ownerMemberId → row.ownerMemberId = ownerMemberId) ∧
    ∀ memberId humanAgentId, input.callerMemberId = some memberId → input.callerHumanAgentId = some humanAgentId →
      row.ownerMemberId = memberId ∧ RouteAccess row.controlChatId row.agentId memberId humanAgentId s
  others : ∀ k, k ≠ input.jobId → t.jobs.lookup k = s.jobs.lookup k

/-- A job goes on beyond the occurrence that was due, or is paused. -/
def Advanced (s t : CronStore) : Prop :=
  ∀ id, t.jobs.lookup id = s.jobs.lookup id ∨
    ∃ row row' scheduledFor, s.jobs.lookup id = some row ∧ t.jobs.lookup id = some row' ∧ row.nextRunAt = some scheduledFor ∧
      scheduledFor ≤ s.clock ∧ ∀ next, row'.nextRunAt = some next → scheduledFor < next

/-- What a commit of a call may change of the jobs. -/
def CronCall.Licensed : CronCall → CronStore → CronStore → Prop
  | .createCronJob input, s, t => t.jobs = s.jobs ∨
    (∀ memberId humanAgentId, input.callerMemberId = some memberId → input.callerHumanAgentId = some humanAgentId →
      RouteAccess input.controlChatId input.agentId memberId humanAgentId s) ∧
    s.identities.lookup input.id = none ∧ ∀ k, k ≠ input.id → t.jobs.lookup k = s.jobs.lookup k
  | .updateCronJob input _, s, t | .deleteCronJob input, s, t => t.jobs = s.jobs ∨ Licence input s t
  | .postEngagement chatId callerMemberId _, s, t => ∀ k, t.jobs.lookup k = s.jobs.lookup k ∨
    ∃ row, s.jobs.lookup k = some row ∧ row.controlChatId = chatId ∧ row.ownerMemberId = callerMemberId
  | .sweepCronJobs _ _, s, t => Advanced s t
  | .writeOther _, s, t => t.jobs = s.jobs

/-- A commit of a call is revised and licensed. -/
structure CronCall.Good (call : CronCall) (s t : CronStore) : Prop where
  revised : Revised s t
  licensed : call.Licensed s t

namespace ScheduledJobsAux

/-! ## The discipline -/

/-- What every commit keeps. -/
structure Kept (s t : CronStore) : Prop where
  clock : s.clock ≤ t.clock
  members : ∀ id m, s.members.lookup id = some m → ∃ m', t.members.lookup id = some m' ∧ m'.agentId = m.agentId
  messages : ∀ id m, s.messages.lookup id = some m → t.messages.lookup id = some m
  acked : ∀ key, Acked key s → Acked key t
  identities : ∀ id x, s.identities.lookup id = some x → t.identities.lookup id = some x

theorem Kept.refl (s : CronStore) : Kept s s :=
  ⟨le_rfl, fun _ m h => ⟨m, h, rfl⟩, fun _ _ h => h, fun _ h => h, fun _ _ h => h⟩

theorem Kept.trans {s t u : CronStore} (h₁ : Kept s t) (h₂ : Kept t u) : Kept s u where
  clock := h₁.clock.trans h₂.clock
  members id m h := by
    obtain ⟨m₁, hm₁, heq₁⟩ := h₁.members id m h
    obtain ⟨m₂, hm₂, heq₂⟩ := h₂.members id m₁ hm₁
    exact ⟨m₂, hm₂, heq₂.trans heq₁⟩
  messages id m h := h₂.messages id m (h₁.messages id m h)
  acked key h := h₂.acked key (h₁.acked key h)
  identities id x h := h₂.identities id x (h₁.identities id x h)

/-- The tables that every commit keeps something of are as they were. -/
theorem kept_of_same {s t : CronStore} (hclock : t.clock = s.clock) (hmembers : t.members = s.members)
    (hmessages : t.messages = s.messages) (hinbox : t.inbox = s.inbox) (hidentities : t.identities = s.identities) : Kept s t :=
  ⟨hclock.ge, fun _ m h => ⟨m, hmembers ▸ h, rfl⟩, fun _ _ h => hmessages ▸ h, fun _ h => by simpa only [Acked, hinbox] using h,
    fun _ _ h => hidentities ▸ h⟩

/-- The job of an identifier is as it was, and has no new trigger. -/
structure SameJob (id : String) (s t : CronStore) : Prop where
  row : t.jobs.lookup id = s.jobs.lookup id
  identity : t.identities.lookup id = s.identities.lookup id
  triggers : ∀ m at_, TriggerOf id m at_ t → TriggerOf id m at_ s

/-- The job is active, of an owner in a chat. -/
def ActiveFor (controlChatId ownerMemberId id : String) (s : CronStore) : Prop :=
  ∃ row, s.jobs.lookup id = some row ∧ row.state = .active ∧ row.controlChatId = controlChatId ∧ row.ownerMemberId = ownerMemberId

/-- No job of an owner in a chat has become active, and the owner has not deleted the chat. -/
structure OwnerChatKept (controlChatId ownerMemberId : String) (s t : CronStore) : Prop where
  active : ∀ id, ActiveFor controlChatId ownerMemberId id t → ActiveFor controlChatId ownerMemberId id s
  engaged : ∀ member, s.members.lookup ownerMemberId = some member →
    (∃ member', t.members.lookup ownerMemberId = some member' ∧ member'.agentId = member.agentId) ∧
      (t.engagement.lookup (controlChatId, member.agentId) = some .deleted → s.engagement.lookup (controlChatId, member.agentId) =
        some .deleted)

/-- What a lock protects. -/
def Protected : CronLock → CronStore → CronStore → Prop
  | .ownerChat controlChatId ownerMemberId, s, t => OwnerChatKept controlChatId ownerMemberId s t
  | .job id, s, t => SameJob id s t
  | .message id, s, t => t.messages.lookup id = s.messages.lookup id
  | .member id, s, t => t.members.lookup id = s.members.lookup id
  | .agent id, s, t => t.agents.lookup id = s.agents.lookup id
  | .speaker chatId agentId, s, t => t.memberships.lookup (chatId, agentId) = s.memberships.lookup (chatId, agentId)
  | .jobName _ _ _, _, _ => True
  | .engagement _ _, _, _ => True

theorem protected_refl (l : CronLock) (s : CronStore) : Protected l s s := by
  cases l with
  | ownerChat => exact ⟨fun _ h => h, fun member h => ⟨⟨member, h, rfl⟩, fun h => h⟩⟩
  | job => exact ⟨rfl, rfl, fun _ _ h => h⟩
  | jobName | engagement => exact trivial
  | message | member | agent | speaker => exact rfl

theorem protected_trans (l : CronLock) (s t u : CronStore) (h₁ : Protected l s t) (h₂ : Protected l t u) : Protected l s u := by
  cases l with
  | ownerChat =>
    refine ⟨fun id h => h₁.active id (h₂.active id h), fun member hmember => ?_⟩
    obtain ⟨⟨member₁, hmember₁, heq₁⟩, hdeleted₁⟩ := h₁.engaged member hmember
    obtain ⟨⟨member₂, hmember₂, heq₂⟩, hdeleted₂⟩ := h₂.engaged member₁ hmember₁
    rw [heq₁] at heq₂ hdeleted₂
    exact ⟨⟨member₂, hmember₂, heq₂⟩, fun h => hdeleted₁ (hdeleted₂ h)⟩
  | job =>
    exact ⟨h₂.row.trans h₁.row, h₂.identity.trans h₁.identity, fun m at_ h => h₁.triggers m at_ (h₂.triggers m at_ h)⟩
  | jobName | engagement => exact trivial
  | message | member | agent | speaker => exact Eq.trans h₂ h₁

/-- The discipline of the scheduled jobs. -/
def cronDiscipline : Discipline CronStore CronLock where
  Inv := ScheduleOk
  Always := Kept
  Protects := Protected
  always_refl := Kept.refl
  always_trans _ _ _ := Kept.trans
  protects_refl := protected_refl
  protects_trans := protected_trans

/-- What a commit under locks changes. -/
structure Change (held : List CronLock) (s t : CronStore) : Prop where
  kept : Kept s t
  jobs : ∀ id, SameJob id s t ∨ .job id ∈ held
  activated : ∀ chatId ownerId id, ActiveFor chatId ownerId id t → ActiveFor chatId ownerId id s ∨ .ownerChat chatId ownerId ∈ held
  deleted : ∀ chatId agentId, t.engagement.lookup (chatId, agentId) = some .deleted →
    s.engagement.lookup (chatId, agentId) = some .deleted ∨
      ∃ id member, s.members.lookup id = some member ∧ member.agentId = agentId ∧ .ownerChat chatId id ∈ held
  messages : ∀ id, t.messages.lookup id = s.messages.lookup id ∨ .message id ∈ held
  members : ∀ id, t.members.lookup id = s.members.lookup id ∨ .member id ∈ held
  agents : ∀ id, t.agents.lookup id = s.agents.lookup id ∨ .agent id ∈ held
  speakers : ∀ chatId agentId, t.memberships.lookup (chatId, agentId) = s.memberships.lookup (chatId, agentId) ∨
    .speaker chatId agentId ∈ held

/-- A lock that another transaction holds is not one of these. -/
theorem not_mem_of_apart {held : List CronLock} {l : CronLock} (h : ∀ h ∈ held, CronLock.conflicts h l = false) : l ∉ held := by
  intro hmem
  have hconflict := h l hmem
  simp [CronLock.conflicts] at hconflict

/-- A commit that changes rows under their locks does its part for the others. -/
theorem guarantees_of_change {held : List CronLock} {s t : CronStore} (hs : ScheduleOk s) (ht : ScheduleOk t) (h : Change held s t) :
    cronDiscipline.Guarantees CronLock.conflicts held s t where
  inv := ht
  always := h.kept
  protects := by
    intro l hapart
    have hfree := not_mem_of_apart hapart
    cases l with
    | ownerChat chatId ownerId =>
      refine ⟨fun id hactive => (h.activated chatId ownerId id hactive).resolve_right hfree, fun member hmember => ?_⟩
      refine ⟨h.kept.members ownerId member hmember, fun hdeleted => ?_⟩
      rcases h.deleted chatId member.agentId hdeleted with hs' | ⟨id, member', hmember', hagent, hheld⟩
      · exact hs'
      · -- The human agent is that of one member only, whose lock is not held.
        obtain rfl := hs.humans id ownerId member' member hmember' hmember hagent
        exact absurd hheld hfree
    | job id => exact (h.jobs id).resolve_right hfree
    | jobName | engagement => exact trivial
    | message id => exact (h.messages id).resolve_right hfree
    | member id => exact (h.members id).resolve_right hfree
    | agent id => exact (h.agents id).resolve_right hfree
    | speaker chatId agentId => exact (h.speakers chatId agentId).resolve_right hfree

/-- Two locks are in conflict in either order. -/
theorem conflicts_symm (l l' : CronLock) : l.conflicts l' = l'.conflicts l := by
  simp only [CronLock.conflicts, eq_comm]

/-! ## Rows that stay -/

variable {s t : CronStore} {held : List CronLock} {id : String} {row row' : CronJobRow}

/-- The triggers are read off the messages. -/
theorem triggerOf_congr (h : t.messages = s.messages) {m : String} {at_ : Int} : TriggerOf id m at_ t ↔ TriggerOf id m at_ s := by
  simp only [TriggerOf, h]

/-- A trigger is one of one job and one instant. -/
theorem TriggerOf.unique {id' m : String} {at_ at' : Int} (h : TriggerOf id m at_ s) (h' : TriggerOf id' m at' s) : id = id' ∧
    at_ = at' := by
  obtain ⟨message, trigger, hm, ht, rfl, rfl⟩ := h
  obtain ⟨message', trigger', hm', ht', rfl, rfl⟩ := h'
  obtain rfl := Option.some.inj (hm.symm.trans hm')
  obtain rfl := Option.some.inj (ht.symm.trans ht')
  exact ⟨rfl, rfl⟩

/-! ## The write of one job -/

/-- The row of one job is written, with a new trigger of it or without. -/
structure JobWrite (fired : Option (String × Int)) (id : String) (row : CronJobRow) (s t : CronStore) : Prop where
  jobs : ∀ k, t.jobs.lookup k = if k = id then some row else s.jobs.lookup k
  identities : ∀ k, t.identities.lookup k = if k = id then some row.toCronJobIdentity else s.identities.lookup k
  triggers : ∀ k m at_, TriggerOf k m at_ t ↔ TriggerOf k m at_ s ∨ k = id ∧ fired = some (m, at_)
  messages : ∀ m, t.messages.lookup m = s.messages.lookup m ∨ s.messages.lookup m = none ∧ ∃ at_, fired = some (m, at_)
  acked : ∀ key, Acked key s → Acked key t
  clock : t.clock = s.clock
  members : t.members = s.members
  engagement : t.engagement = s.engagement
  agents : t.agents = s.agents
  memberships : t.memberships = s.memberships

/-- The row and the trigger of such a write are in order. -/
structure JobAllowed (held : List CronLock) (fired : Option (String × Int)) (id : String) (row : CronJobRow) (s t : CronStore) :
    Prop where
  locked : .job id ∈ held
  messageLocked : ∀ m at_, fired = some (m, at_) → .message m ∈ held
  known : ∀ x, s.identities.lookup id = some x → x = row.toCronJobIdentity
  shape : JobShape row
  owner : ∃ member, s.members.lookup row.ownerMemberId = some member
  due : ∀ next, row.nextRunAt = some next → ∀ m at_, TriggerOf id m at_ t → at_ < next
  fresh : ∀ m at_, fired = some (m, at_) → at_ ≤ s.clock ∧ ∀ m', ¬ TriggerOf id m' at_ s
  outstanding : ∀ m at_, TriggerOf id m at_ t →
    row.lastTriggerMessageId = some m ∨ ∃ inboxId, Acked (inboxId, m, row.controlChatId) t
  activated : row.state = .active → ActiveFor row.controlChatId row.ownerMemberId id s ∨
    .ownerChat row.controlChatId row.ownerMemberId ∈ held ∧
      ∀ member, s.members.lookup row.ownerMemberId = some member →
        s.engagement.lookup (row.controlChatId, member.agentId) ≠ some .deleted

/-- The owner of an active job is engaged. -/
theorem engaged_of_activeFor (hs : ScheduleOk s) {controlChatId ownerMemberId : String}
    (h : ActiveFor controlChatId ownerMemberId id s) {member : CronMember} (hmember : s.members.lookup ownerMemberId = some member) :
    s.engagement.lookup (controlChatId, member.agentId) ≠ some .deleted := by
  obtain ⟨row, hrow, hactive, rfl, rfl⟩ := h
  exact hs.engaged id row member hrow hactive hmember

/-- The rows are still in order after the write of one job. -/
theorem scheduleOk_of_jobWrite {fired : Option (String × Int)} (hs : ScheduleOk s) (hw : JobWrite fired id row s t)
    (ha : JobAllowed held fired id row s t) : ScheduleOk t := by
  have hjob : ∀ k row₁, t.jobs.lookup k = some row₁ → k = id ∧ row₁ = row ∨ k ≠ id ∧ s.jobs.lookup k = some row₁ := by
    intro k row₁ hrow₁
    rw [hw.jobs k] at hrow₁
    split at hrow₁
    · next hk => exact .inl ⟨hk, (Option.some.inj hrow₁).symm⟩
    · next hk => exact .inr ⟨hk, hrow₁⟩
  have htrigger : ∀ k m at_, k ≠ id → TriggerOf k m at_ t → TriggerOf k m at_ s := by
    intro k m at_ hk h
    rcases (hw.triggers k m at_).mp h with h | ⟨heq, _⟩
    · exact h
    · exact absurd heq hk
  refine ⟨fun k row₁ hrow₁ => ?_, fun k at_ m m' hm hm' => ?_, fun k row₁ next hrow₁ hnext m at_ hm => ?_, fun k m at_ hm => ?_,
    fun k row₁ hrow₁ m at_ hm => ?_, fun k row₁ hrow₁ => ?_, fun k row₁ hrow₁ =>
      ?_, fun k row₁ member hrow₁ hactive hmember => ?_, ?_⟩
  · rcases hjob k row₁ hrow₁ with ⟨rfl, rfl⟩ | ⟨_, hrow₁⟩
    · exact ha.shape
    · exact hs.shape k row₁ hrow₁
  · rcases (hw.triggers k m at_).mp hm with h | ⟨rfl, hfired⟩ <;> rcases (hw.triggers k m' at_).mp hm' with h' | ⟨hk, hfired'⟩
    · exact hs.once k at_ m m' h h'
    · subst hk
      exact absurd h ((ha.fresh m' at_ hfired').2 m)
    · exact absurd h' ((ha.fresh m at_ hfired).2 m')
    · exact (Prod.mk.inj (Option.some.inj (hfired.symm.trans hfired'))).1
  · rcases hjob k row₁ hrow₁ with ⟨rfl, rfl⟩ | ⟨hk, hrow₁⟩
    · exact ha.due next hnext m at_ hm
    · exact hs.before k row₁ next hrow₁ hnext m at_ (htrigger k m at_ hk hm)
  · rw [hw.clock, hw.identities k]
    rcases (hw.triggers k m at_).mp hm with h | ⟨rfl, hfired⟩
    · obtain ⟨hpast, hknown⟩ := hs.past k m at_ h
      refine ⟨hpast, ?_⟩
      split
      · rfl
      · exact hknown
    · exact ⟨(ha.fresh m at_ hfired).1, by simp⟩
  · rcases hjob k row₁ hrow₁ with ⟨rfl, rfl⟩ | ⟨hk, hrow₁⟩
    · exact ha.outstanding m at_ hm
    · exact (hs.outstanding k row₁ hrow₁ m at_ (htrigger k m at_ hk hm)).imp_right fun ⟨inboxId, h⟩ => ⟨inboxId, hw.acked _ h⟩
  · rw [hw.identities k]
    rcases hjob k row₁ hrow₁ with ⟨rfl, rfl⟩ | ⟨hk, hrow₁⟩
    · exact if_pos rfl
    · rw [if_neg hk]
      exact hs.identity k row₁ hrow₁
  · rw [hw.members]
    rcases hjob k row₁ hrow₁ with ⟨rfl, rfl⟩ | ⟨_, hrow₁⟩
    · exact ha.owner
    · exact hs.owner k row₁ hrow₁
  · rw [hw.engagement]
    rw [hw.members] at hmember
    rcases hjob k row₁ hrow₁ with ⟨rfl, rfl⟩ | ⟨_, hrow₁⟩
    · rcases ha.activated hactive with hbefore | ⟨_, hengaged⟩
      · exact engaged_of_activeFor hs hbefore hmember
      · exact hengaged member hmember
    · exact hs.engaged k row₁ member hrow₁ hactive hmember
  · rw [hw.members]
    exact hs.humans

/-- The write of one job changes what it may. -/
theorem change_of_jobWrite {fired : Option (String × Int)} (hw : JobWrite fired id row s t) (ha : JobAllowed held fired id row s t) :
    Change held s t where
  kept := by
    refine ⟨hw.clock.ge, fun k m h => ⟨m, by rw [hw.members]; exact h, rfl⟩, fun m message h => ?_, hw.acked, fun k x hx => ?_⟩
    · rcases hw.messages m with hsame | ⟨hnone, _⟩
      · exact hsame.trans h
      · rw [hnone] at h
        cases h
    · rw [hw.identities k]
      split
      · next hk =>
        subst hk
        rw [ha.known x hx]
      · exact hx
  jobs k := by
    by_cases hk : k = id
    · subst hk
      exact .inr ha.locked
    · refine .inl ⟨by rw [hw.jobs k, if_neg hk], by rw [hw.identities k, if_neg hk], fun m at_ h => ?_⟩
      rcases (hw.triggers k m at_).mp h with h | ⟨heq, _⟩
      · exact h
      · exact absurd heq hk
  activated chatId ownerId k hactive := by
    obtain ⟨row₁, hrow₁, hstate, rfl, rfl⟩ := hactive
    rw [hw.jobs k] at hrow₁
    split at hrow₁
    · next hk =>
      subst hk
      obtain rfl := Option.some.inj hrow₁
      exact (ha.activated hstate).imp_right fun h => h.1
    · exact .inl ⟨row₁, hrow₁, hstate, rfl, rfl⟩
  deleted chatId agentId h := .inl (by rwa [hw.engagement] at h)
  messages m := by
    rcases hw.messages m with hsame | ⟨_, at_, hfired⟩
    · exact .inl hsame
    · exact .inr (ha.messageLocked m at_ hfired)
  members k := .inl (by rw [hw.members])
  agents k := .inl (by rw [hw.agents])
  speakers chatId agentId := .inl (by rw [hw.memberships])

/-- The commit of the write of one job does its part. -/
theorem guarantees_of_jobWrite {fired : Option (String × Int)} (hs : ScheduleOk s) (hw : JobWrite fired id row s t)
    (ha : JobAllowed held fired id row s t) : cronDiscipline.Guarantees CronLock.conflicts held s t :=
  guarantees_of_change hs (scheduleOk_of_jobWrite hs hw ha) (change_of_jobWrite hw ha)

/-- The rows of the jobs after one is set. -/
theorem lookup_setJob (id k : String) (row : CronJobRow) (s : CronStore) :
    (setJob id row s).jobs.lookup k = if k = id then some row else s.jobs.lookup k :=
  AssocList.lookup_insert_ite _ _ _ _

/-- A job that has a row is changed by setting it. -/
theorem modifyJob_eq {change : CronJobRow → CronJobRow} (hrow : s.jobs.lookup id = some row) :
    modifyJob id change s = setJob id (change row) s := by
  simp [modifyJob, hrow]

/-- The identities with that of a job they have. -/
theorem identities_of_known {x : CronJobIdentity} (h : s.identities.lookup id = some x) (k : String) :
    s.identities.lookup k = if k = id then some x else s.identities.lookup k := by
  split
  · next hk => rw [hk, h]
  · rfl

/-- The change of a job that keeps its identity is a write of it. -/
theorem jobWrite_setJob (hs : ScheduleOk s) (hrow : s.jobs.lookup id = some row)
    (hidentity : row'.toCronJobIdentity = row.toCronJobIdentity) : JobWrite none id row' s (setJob id row' s) where
  jobs k := lookup_setJob id k row' s
  identities k := by
    rw [hidentity]
    exact identities_of_known (hs.identity id row hrow) k
  triggers k m at_ := by
    rw [triggerOf_congr (s := s) (t := setJob id row' s) rfl]
    simp
  messages _ := .inl rfl
  acked _ h := h
  clock := rfl
  members := rfl
  engagement := rfl
  agents := rfl
  memberships := rfl

/-- The change of a job with a new trigger message, and an entry of it, is a write of it. -/
theorem jobWrite_trigger (hs : ScheduleOk s) (hrow : s.jobs.lookup id = some row)
    (hidentity : row'.toCronJobIdentity = row.toCronJobIdentity) {m : String} (hnone : s.messages.lookup m = none)
    {message : CronMessage}
    {trigger : CronTrigger} (htrigger : message.cronTrigger = some trigger) (hjob : trigger.jobId = id)
    {key : String × String × String} {entry : CronInboxEntry} :
    JobWrite (some (m, trigger.scheduledFor)) id row' s (setJob id row' (addEntry key entry (addMessage m message s))) := by
  have hlookup : ∀ k, (addMessage m message s).messages.lookup k = if k = m then some message else s.messages.lookup k :=
    fun k => AssocList.lookup_insert_ite _ _ _ _
  have hentry : ∀ u : CronStore, (addEntry key entry u).messages = u.messages ∧ (addEntry key entry u).jobs = u.jobs ∧
      (addEntry key entry u).identities = u.identities ∧ (addEntry key entry u).clock = u.clock ∧
      (addEntry key entry u).members = u.members ∧ (addEntry key entry u).engagement = u.engagement ∧
      (addEntry key entry u).agents = u.agents ∧ (addEntry key entry u).memberships = u.memberships := by
    intro u
    unfold addEntry
    split <;> exact ⟨rfl, rfl, rfl, rfl, rfl, rfl, rfl, rfl⟩
  obtain ⟨hmessages, hjobs, hidentities, hclock, hmembers, hengagement, hagents, hmemberships⟩ := hentry (addMessage m message s)
  have hmessage : ∀ k, (setJob id row' (addEntry key entry (addMessage m message s))).messages.lookup k =
      if k = m then some message else s.messages.lookup k := by
    intro k
    show (addEntry key entry (addMessage m message s)).messages.lookup k = _
    rw [hmessages, hlookup]
  refine ⟨fun k => ?_, fun k => ?_, fun k m' at_ => ?_, fun k => ?_, fun k h => ?_, hclock, hmembers, hengagement,
    hagents, hmemberships⟩
  · rw [lookup_setJob, hjobs]
    rfl
  · show (addEntry key entry (addMessage m message s)).identities.lookup k = _
    rw [hidentities, hidentity]
    exact identities_of_known (hs.identity id row hrow) k
  · constructor
    · rintro ⟨message', trigger', hm', ht', rfl, rfl⟩
      rw [hmessage] at hm'
      split at hm'
      · next hk =>
        obtain rfl := Option.some.inj hm'
        obtain rfl := Option.some.inj (ht'.symm.trans htrigger)
        exact .inr ⟨hjob, by rw [hk]⟩
      · exact .inl ⟨message', trigger', hm', ht', rfl, rfl⟩
    · rintro (⟨message', trigger', hm', ht', rfl, rfl⟩ | ⟨rfl, hfired⟩)
      · refine ⟨message', trigger', ?_, ht', rfl, rfl⟩
        rw [hmessage, if_neg]
        · exact hm'
        · rintro rfl
          rw [hnone] at hm'
          cases hm'
      · obtain ⟨rfl, rfl⟩ := Prod.mk.inj (Option.some.inj hfired)
        exact ⟨message, trigger, by rw [hmessage, if_pos rfl], htrigger, hjob, rfl⟩
  · rw [hmessage]
    split
    · next hk => exact .inr ⟨hk ▸ hnone, trigger.scheduledFor, by rw [hk]⟩
    · exact .inl rfl
  · show (addEntry key entry (addMessage m message s)).inbox.lookup k = _
    have hinbox : s.inbox.lookup k = some ⟨.acked, true⟩ := h
    unfold addEntry
    split
    · exact hinbox
    · next hfree =>
      have hne : k ≠ key := by
        rintro rfl
        have hlook : s.inbox.lookup k = none := hfree
        rw [hlook] at hinbox
        cases hinbox
      show (AList.insert key entry s.inbox).lookup k = _
      rw [AList.lookup_insert_ne hne]
      exact hinbox

/-- A new job is a write of it. -/
theorem jobWrite_addJob (id : String) (row : CronJobRow) (s : CronStore) : JobWrite none id row s (addJob id row s) where
  jobs k := lookup_setJob id k row s
  identities k := AssocList.lookup_insert_ite _ _ _ _
  triggers k m at_ := by
    rw [triggerOf_congr (s := s) (t := addJob id row s) rfl]
    simp
  messages _ := .inl rfl
  acked _ h := h
  clock := rfl
  members := rfl
  engagement := rfl
  agents := rfl
  memberships := rfl

/-! ## The deletion of a job -/

/-- The rows of the jobs without one. -/
theorem lookup_dropJob {k : String} {row : CronJobRow} (h : (dropJob id s).jobs.lookup k = some row) :
    k ≠ id ∧ s.jobs.lookup k = some row := by
  by_cases hk : k = id
  · subst hk
    simp [dropJob] at h
  · exact ⟨hk, by simpa [dropJob, AList.lookup_erase_ne hk] using h⟩

/-- The commit of a deletion does its part. -/
theorem guarantees_dropJob (hs : ScheduleOk s) (hlock : .job id ∈ held) :
    cronDiscipline.Guarantees CronLock.conflicts held s (dropJob id s) := by
  refine guarantees_of_change hs ?_ ⟨kept_of_same rfl rfl rfl rfl rfl, fun k => ?_, fun chatId ownerId k hactive => ?_,
    fun _ _ h => .inl h, fun _ => .inl rfl, fun _ => .inl rfl, fun _ => .inl rfl, fun _ _ => .inl rfl⟩
  · exact ⟨fun k row h => hs.shape k row (lookup_dropJob h).2, hs.once, fun k row next h => hs.before k row next (lookup_dropJob h).2,
      hs.past, fun k row h => hs.outstanding k row (lookup_dropJob h).2, fun k row h => hs.identity k row (lookup_dropJob h).2,
      fun k row h => hs.owner k row (lookup_dropJob h).2, fun k row member h =>
        hs.engaged k row member (lookup_dropJob h).2, hs.humans⟩
  · by_cases hk : k = id
    · subst hk
      exact .inr hlock
    · exact .inl ⟨AList.lookup_erase_ne hk, rfl, fun _ _ h => h⟩
  · obtain ⟨row, hrow, hrest⟩ := hactive
    exact .inl ⟨row, (lookup_dropJob hrow).2, hrest⟩

/-! ## The engagement of an owner -/

/-- The rows of the jobs after some are paused. -/
theorem lookup_pauseAll (reason : CronJobPauseReason) {ids : List String} (hids : ids.Nodup) (s : CronStore) (k : String) :
    (pauseAll reason ids s).jobs.lookup k = if k ∈ ids then (s.jobs.lookup k).map (autoPause reason) else s.jobs.lookup k := by
  induction ids generalizing s with
  | nil => rfl
  | cons id ids ih =>
    obtain ⟨hnot, hids⟩ := List.nodup_cons.mp hids
    have hmodify : (modifyJob id (autoPause reason) s).jobs.lookup k =
        if k = id then (s.jobs.lookup k).map (autoPause reason) else s.jobs.lookup k := by
      cases hrow : s.jobs.lookup id with
      | none =>
        simp only [modifyJob, hrow]
        split
        · next hk => rw [hk, hrow, Option.map_none]
        · rfl
      | some row =>
        rw [modifyJob_eq hrow, lookup_setJob]
        split
        · next hk => rw [hk, hrow, Option.map_some]
        · rfl
    show (pauseAll reason ids (modifyJob id (autoPause reason) s)).jobs.lookup k = _
    rw [ih hids, hmodify]
    by_cases hk : k = id
    · subst hk
      simp [hnot]
    · simp [hk]

/-- A pause of jobs writes the jobs alone. -/
theorem pauseAll_eq (reason : CronJobPauseReason) (ids : List String) (s : CronStore) :
    pauseAll reason ids s = { s with jobs := (pauseAll reason ids s).jobs } := by
  induction ids generalizing s with
  | nil => rfl
  | cons id ids ih =>
    show pauseAll reason ids (modifyJob id (autoPause reason) s) =
      { s with jobs := (pauseAll reason ids (modifyJob id (autoPause reason) s)).jobs }
    have hmodify : modifyJob id (autoPause reason) s = { s with jobs := (modifyJob id (autoPause reason) s).jobs } := by
      unfold modifyJob
      split <;> rfl
    rw [ih (modifyJob id (autoPause reason) s)]
    generalize (pauseAll reason ids (modifyJob id (autoPause reason) s)).jobs = jobs
    rw [hmodify]

/-- A job that the server has paused is in shape. -/
theorem jobShape_autoPause (reason : CronJobPauseReason) (row : CronJobRow) : JobShape (autoPause reason row) :=
  ⟨by simp [autoPause], by simp [autoPause], Nat.succ_pos _⟩

/-- The active jobs of an owner in a chat are listed, each once. -/
theorem mem_activeJobs {controlChatId ownerMemberId : String} :
    id ∈ activeJobs controlChatId ownerMemberId s ↔ ActiveFor controlChatId ownerMemberId id s := by
  simp only [activeJobs, List.mem_map, List.mem_filter, decide_eq_true_eq]
  constructor
  · rintro ⟨e, ⟨hmem, hchat, howner, hstate⟩, rfl⟩
    exact ⟨e.2, AList.mem_lookup_iff.mpr hmem, hstate, hchat, howner⟩
  · rintro ⟨row, hrow, hstate, hchat, howner⟩
    exact ⟨⟨id, row⟩, ⟨AList.mem_lookup_iff.mp hrow, hchat, howner, hstate⟩, rfl⟩

theorem nodup_activeJobs (controlChatId ownerMemberId : String) (s : CronStore) : (activeJobs controlChatId ownerMemberId s).Nodup :=
  (List.filter_sublist.map Sigma.fst).nodup s.jobs.nodupKeys

/-- The rows of the engagements after one is set. -/
theorem lookup_setEngagement (chatId agentId : String) (status : EngagementStatus) (s : CronStore) (key : String × String) :
    (setEngagement chatId agentId status s).engagement.lookup key = if key = (chatId, agentId) then some status
      else s.engagement.lookup key :=
  AssocList.lookup_insert_ite _ _ _ _

/-- The commit of an engagement that is no deletion does its part. -/
theorem guarantees_setEngagement (hs : ScheduleOk s) {chatId agentId : String} {status : EngagementStatus}
    (hstatus : status ≠ .deleted) :
    cronDiscipline.Guarantees CronLock.conflicts held s (setEngagement chatId agentId status s) := by
  have hdeleted : ∀ key, (setEngagement chatId agentId status s).engagement.lookup key = some .deleted →
      s.engagement.lookup key = some .deleted := by
    intro key h
    rw [lookup_setEngagement] at h
    split at h
    · exact absurd (Option.some.inj h) hstatus
    · exact h
  refine guarantees_of_change hs ⟨hs.shape, hs.once, hs.before, hs.past, hs.outstanding, hs.identity, hs.owner,
    fun id row member hrow hactive hmember h => hs.engaged id row member hrow hactive hmember (hdeleted _ h), hs.humans⟩
    ⟨kept_of_same rfl rfl rfl rfl rfl, fun _ => .inl ⟨rfl, rfl, fun _ _ h => h⟩, fun _ _ _ h => .inl h,
      fun chatId agentId h => .inl (hdeleted _ h), fun _ => .inl rfl, fun _ => .inl rfl, fun _ => .inl rfl, fun _ _ => .inl rfl⟩

/-- The store after an owner has deleted a chat. -/
def chatDeleted (chatId agentId : String) (ids : List String) (s : CronStore) : CronStore :=
  setEngagement chatId agentId .deleted (pauseAll .ownerChatDeleted ids s)

/-- The deletion of a chat writes the jobs and the engagement alone. -/
theorem chatDeleted_eq (chatId agentId : String) (ids : List String) (s : CronStore) :
    chatDeleted chatId agentId ids s =
      { s with jobs := (pauseAll .ownerChatDeleted ids s).jobs, engagement := s.engagement.insert (chatId, agentId) .deleted } := by
  rw [chatDeleted, pauseAll_eq]
  rfl

/-- A job after some are paused: paused, or as it was. -/
theorem pauseAll_cases {reason : CronJobPauseReason} {ids : List String} (hids : ids.Nodup) {k : String}
    (h : (pauseAll reason ids s).jobs.lookup k = some row) :
    (k ∈ ids ∧ ∃ before, s.jobs.lookup k = some before ∧ row = autoPause reason before) ∨ k ∉ ids ∧ s.jobs.lookup k = some row := by
  rw [lookup_pauseAll _ hids] at h
  split at h
  · next hk =>
    obtain ⟨before, hbefore, heq⟩ := Option.map_eq_some_iff.mp h
    exact .inl ⟨hk, before, hbefore, heq.symm⟩
  · next hk => exact .inr ⟨hk, h⟩

/-- The commit of the deletion of a chat does its part, when the jobs it pauses are the active ones of the owner. -/
theorem guarantees_chatDeleted (hs : ScheduleOk s) {chatId ownerId : String} {member : CronMember} {ids : List String}
    (hmember : s.members.lookup ownerId = some member) (hids : ids.Nodup) (hbarrier : .ownerChat chatId ownerId ∈ held)
    (hlocked : ∀ k ∈ ids, .job k ∈ held) (hall : ∀ k, ActiveFor chatId ownerId k s → k ∈ ids) :
    cronDiscipline.Guarantees CronLock.conflicts held s (chatDeleted chatId member.agentId ids s) := by
  have hrows : ∀ k row, (pauseAll .ownerChatDeleted ids s).jobs.lookup k = some row →
      (k ∈ ids ∧ ∃ before, s.jobs.lookup k = some before ∧ row = autoPause .ownerChatDeleted before) ∨
        k ∉ ids ∧ s.jobs.lookup k = some row := fun k row => pauseAll_cases hids
  have hrest : ∀ k, k ∉ ids → (pauseAll .ownerChatDeleted ids s).jobs.lookup k = s.jobs.lookup k :=
    fun k hk => by rw [lookup_pauseAll _ hids, if_neg hk]
  rw [chatDeleted_eq]
  generalize (pauseAll .ownerChatDeleted ids s).jobs = jobs at hrows hrest ⊢
  have hsame : ∀ k row, jobs.lookup k = some row → ∃ before, s.jobs.lookup k = some before ∧
      row.toCronJobIdentity = before.toCronJobIdentity ∧ row.lastTriggerMessageId = before.lastTriggerMessageId := by
    intro k row hrow
    rcases hrows k row hrow with ⟨_, before, hbefore, rfl⟩ | ⟨_, hrow⟩
    · exact ⟨before, hbefore, rfl, rfl⟩
    · exact ⟨row, hrow, rfl, rfl⟩
  have hactive : ∀ k row, jobs.lookup k = some row → row.state = .active → k ∉ ids ∧ s.jobs.lookup k = some row := by
    intro k row hrow hstate
    rcases hrows k row hrow with ⟨_, before, _, rfl⟩ | h
    · cases hstate
    · exact h
  refine guarantees_of_change hs ⟨fun k row hrow => ?_, hs.once, fun k row next hrow hnext => ?_, hs.past,
    fun k row hrow m at_ hm => ?_,
    fun k row hrow => ?_, fun k row hrow => ?_, fun k row member' hrow hstate hmember' hdeleted => ?_, hs.humans⟩
    ⟨kept_of_same rfl rfl rfl rfl rfl, fun k => ?_, fun chatId' ownerId' k hk => ?_, fun chatId' agentId' hdeleted => ?_,
      fun _ => .inl rfl, fun _ => .inl rfl, fun _ => .inl rfl, fun _ _ => .inl rfl⟩
  · rcases hrows k row hrow with ⟨_, before, _, rfl⟩ | ⟨_, hrow⟩
    · exact jobShape_autoPause _ before
    · exact hs.shape k row hrow
  · rcases hrows k row hrow with ⟨_, before, _, rfl⟩ | ⟨_, hrow⟩
    · cases hnext
    · exact hs.before k row next hrow hnext
  · obtain ⟨before, hbefore, hidentity, hlast⟩ := hsame k row hrow
    rw [hlast, congrArg CronJobIdentity.controlChatId hidentity]
    exact hs.outstanding k before hbefore m at_ hm
  · obtain ⟨before, hbefore, hidentity, _⟩ := hsame k row hrow
    rw [hidentity]
    exact hs.identity k before hbefore
  · obtain ⟨before, hbefore, hidentity, _⟩ := hsame k row hrow
    rw [congrArg CronJobIdentity.ownerMemberId hidentity]
    exact hs.owner k before hbefore
  · obtain ⟨hk, hrow⟩ := hactive k row hrow hstate
    rw [AssocList.lookup_insert_ite] at hdeleted
    split at hdeleted
    · next hkey =>
      obtain ⟨hchat, hagent⟩ := Prod.mk.inj hkey
      have howner := hs.humans _ _ _ _ hmember' hmember hagent
      exact hk (hall k ⟨row, hrow, hstate, hchat, howner⟩)
    · exact hs.engaged k row member' hrow hstate hmember' hdeleted
  · by_cases hk : k ∈ ids
    · exact .inr (hlocked k hk)
    · exact .inl ⟨hrest k hk, rfl, fun _ _ h => h⟩
  · obtain ⟨row, hrow, hstate, hchat, howner⟩ := hk
    exact .inl ⟨row, (hactive k row hrow hstate).2, hstate, hchat, howner⟩
  · rw [AssocList.lookup_insert_ite] at hdeleted
    split at hdeleted
    · next hkey =>
      obtain ⟨rfl, rfl⟩ := Prod.mk.inj hkey
      exact .inr ⟨ownerId, member, hmember, rfl, hbarrier⟩
    · exact .inl hdeleted

/-! ## The writes of other services -/

/-- The commit of a write that leaves the jobs, their triggers and the members as they are does its part. -/
theorem guarantees_of_sameJobs (hs : ScheduleOk s) (hjobs : t.jobs = s.jobs) (hidentities : t.identities = s.identities)
    (hmembers : t.members = s.members) (hengagement : t.engagement = s.engagement) (hclock : s.clock ≤ t.clock)
    (hmessages : ∀ m message, s.messages.lookup m = some message → t.messages.lookup m = some message)
    (htriggers : ∀ id m at_, TriggerOf id m at_ t → TriggerOf id m at_ s)
    (hacked : ∀ key, Acked key s → Acked key t)
    (hlocked : ∀ m, t.messages.lookup m = s.messages.lookup m ∨ .message m ∈ held)
    (hagents : ∀ k, t.agents.lookup k = s.agents.lookup k ∨ .agent k ∈ held)
    (hspeakers : ∀ chatId agentId, t.memberships.lookup (chatId, agentId) = s.memberships.lookup (chatId, agentId) ∨
      .speaker chatId agentId ∈ held) : cronDiscipline.Guarantees CronLock.conflicts held s t := by
  refine guarantees_of_change hs ⟨fun k row hrow => ?_, fun k at_ m m' hm hm' => ?_, fun k row next hrow hnext m at_ hm => ?_,
    fun k m at_ hm => ?_, fun k row hrow m at_ hm => ?_, fun k row hrow => ?_, fun k row hrow => ?_,
    fun k row member hrow hstate hmember => ?_, ?_⟩
    ⟨⟨hclock, fun k m hm => ⟨m, hmembers ▸ hm, rfl⟩, hmessages, hacked, fun k x hx => hidentities ▸ hx⟩, fun k => ?_,
      fun chatId ownerId k hk => ?_, fun chatId agentId hdeleted => ?_, hlocked, fun k => ?_, hagents, hspeakers⟩
  · exact hs.shape k row (hjobs ▸ hrow)
  · exact hs.once k at_ m m' (htriggers k m at_ hm) (htriggers k m' at_ hm')
  · exact hs.before k row next (hjobs ▸ hrow) hnext m at_ (htriggers k m at_ hm)
  · obtain ⟨hpast, hknown⟩ := hs.past k m at_ (htriggers k m at_ hm)
    exact ⟨hpast.trans hclock, hidentities ▸ hknown⟩
  · exact (hs.outstanding k row (hjobs ▸ hrow) m at_ (htriggers k m at_ hm)).imp_right fun ⟨inboxId, h⟩ => ⟨inboxId, hacked _ h⟩
  · rw [hidentities]
    exact hs.identity k row (hjobs ▸ hrow)
  · rw [hmembers]
    exact hs.owner k row (hjobs ▸ hrow)
  · rw [hengagement]
    exact hs.engaged k row member (hjobs ▸ hrow) hstate (hmembers ▸ hmember)
  · rw [hmembers]
    exact hs.humans
  · exact .inl ⟨by rw [hjobs], by rw [hidentities], htriggers k⟩
  · obtain ⟨row, hrow, hrest⟩ := hk
    exact .inl ⟨row, hjobs ▸ hrow, hrest⟩
  · exact .inl (hengagement ▸ hdeleted)
  · exact .inl (by rw [hmembers])

/-- The commit of a write of the members does its part, when each keeps the human agent that it alone has. -/
theorem guarantees_of_members (hs : ScheduleOk s) {members : Rows String CronMember}
    (hkept : ∀ k m, s.members.lookup k = some m → ∃ m', members.lookup k = some m' ∧ m'.agentId = m.agentId)
    (hhumans : ∀ k k' m m', members.lookup k = some m → members.lookup k' = some m' → m.agentId = m'.agentId → k = k')
    (hlocked : ∀ k, members.lookup k = s.members.lookup k ∨ .member k ∈ held) :
    cronDiscipline.Guarantees CronLock.conflicts held s { s with members := members } := by
  refine guarantees_of_change hs ⟨hs.shape, hs.once, hs.before, hs.past, hs.outstanding, hs.identity, fun k row hrow => ?_,
    fun k row member hrow hstate hmember => ?_, hhumans⟩
    ⟨⟨le_rfl, hkept, fun _ _ h => h, fun _ h => h, fun _ _ h => h⟩, fun _ => .inl ⟨rfl, rfl, fun _ _ h => h⟩, fun _ _ _ h => .inl h,
      fun _ _ h => .inl h, fun _ => .inl rfl, hlocked, fun _ => .inl rfl, fun _ _ => .inl rfl⟩
  · obtain ⟨m, hm⟩ := hs.owner k row hrow
    obtain ⟨m', hm', _⟩ := hkept _ m hm
    exact ⟨m', hm'⟩
  · obtain ⟨m, hm⟩ := hs.owner k row hrow
    obtain ⟨m', hm', hagent⟩ := hkept _ m hm
    obtain rfl : m' = member := Option.some.inj (hm'.symm.trans hmember)
    rw [hagent]
    exact hs.engaged k row m hrow hstate hm

/-- An entry that is acknowledged stays so. -/
theorem entry_acked (change : InboxChange) : change.entry (some ⟨.acked, true⟩) = some ⟨.acked, true⟩ := by
  cases change <;> rfl

/-- A member with a human agent is found by it. -/
theorem memberOfAgent_isSome {member : CronMember} (h : s.members.lookup id = some member) :
    (memberOfAgent member.agentId s).isSome = true := by
  rw [memberOfAgent, Option.isSome_map, List.find?_isSome]
  exact ⟨⟨id, member⟩, AList.mem_lookup_iff.mp h, by simp⟩

/-- The commit of a write of another service does its part. -/
theorem guarantees_write (hs : ScheduleOk s) (write : CronWrite) :
    cronDiscipline.Guarantees CronLock.conflicts write.locks s (write.apply s) := by
  cases write with
  | tick milliseconds =>
    exact guarantees_of_sameJobs hs rfl rfl rfl rfl (by simp [CronWrite.apply]) (fun _ _ h => h) (fun _ _ _ h => h) (fun _ h => h)
      (fun _ => .inl rfl) (fun _ => .inl rfl) fun _ _ => .inl rfl
  | routes tables =>
    exact guarantees_of_sameJobs hs rfl rfl rfl rfl le_rfl (fun _ _ h => h) (fun _ _ _ h => h) (fun _ h => h)
      (fun _ => .inl rfl) (fun _ => .inl rfl) fun _ _ => .inl rfl
  | archive chatId agentId => exact guarantees_setEngagement hs (by simp)
  | agent k row =>
    refine guarantees_of_sameJobs hs rfl rfl rfl rfl le_rfl (fun _ _ h => h) (fun _ _ _ h => h) (fun _ h => h)
      (fun _ => .inl rfl) (fun k' => ?_) fun _ _ => .inl rfl
    by_cases hk : k' = k
    · subst hk
      exact .inr (List.mem_singleton_self _)
    · exact .inl (AList.lookup_insert_ne hk)
  | membership chatId agentId mode =>
    have hother : ∀ key, key ≠ (chatId, agentId) →
        ((CronWrite.membership chatId agentId mode).apply s).memberships.lookup key = s.memberships.lookup key := by
      intro key hkey
      cases mode with
      | none => exact AList.lookup_erase_ne hkey
      | some mode => exact AList.lookup_insert_ne hkey
    have hspeakers : ∀ chatId' agentId', ((CronWrite.membership chatId agentId mode).apply s).memberships.lookup (chatId', agentId') =
        s.memberships.lookup (chatId', agentId') ∨ .speaker chatId' agentId' ∈ (CronWrite.membership chatId agentId mode).locks := by
      intro chatId' agentId'
      by_cases hkey : (chatId', agentId') = (chatId, agentId)
      · obtain ⟨rfl, rfl⟩ := Prod.mk.inj hkey
        exact .inr (List.mem_singleton_self _)
      · exact .inl (hother _ hkey)
    cases mode <;> exact guarantees_of_sameJobs hs rfl rfl rfl rfl le_rfl (fun _ _ h => h) (fun _ _ _ h => h) (fun _ h => h)
      (fun _ => .inl rfl) (fun _ => .inl rfl) hspeakers
  | message m chatId content =>
    simp only [CronWrite.apply]
    split
    · exact .refl hs
    · next hfree =>
      have hnone : s.messages.lookup m = none := by simpa using hfree
      have hlookup : ∀ k, (addMessage m ⟨chatId, content, none⟩ s).messages.lookup k =
          if k = m then some ⟨chatId, content, none⟩ else s.messages.lookup k := fun k => AssocList.lookup_insert_ite _ _ _ _
      refine guarantees_of_sameJobs hs rfl rfl rfl rfl le_rfl (fun k message hk => ?_) (fun id k at_ hk => ?_)
        (fun _ h => h) (fun k => ?_) (fun _ => .inl rfl) fun _ _ => .inl rfl
      · rw [hlookup, if_neg]
        · exact hk
        · rintro rfl
          rw [hnone] at hk
          cases hk
      · obtain ⟨message, trigger, hmessage, htrigger, hrest⟩ := hk
        rw [hlookup] at hmessage
        split at hmessage
        · obtain rfl := Option.some.inj hmessage
          cases htrigger
        · exact ⟨message, trigger, hmessage, htrigger, hrest⟩
      · rw [hlookup]
        split
        · next hk => exact .inr (by simp [CronWrite.locks, hk])
        · exact .inl rfl
  | inbox key change =>
    have hacked : ∀ k, Acked k s → Acked k ((CronWrite.inbox key change).apply s) := by
      intro k hk
      have hk' : s.inbox.lookup k = some ⟨.acked, true⟩ := hk
      simp only [CronWrite.apply]
      by_cases heq : k = key
      · subst heq
        simp only [hk', entry_acked, Acked, AList.lookup_insert]
      · split
        · exact (AList.lookup_insert_ne heq).trans hk'
        · exact (AList.lookup_erase_ne heq).trans hk'
    have hsame : ∃ inbox, (CronWrite.inbox key change).apply s = { s with inbox := inbox } := by
      simp only [CronWrite.apply]
      split
      · exact ⟨_, rfl⟩
      · exact ⟨_, rfl⟩
    obtain ⟨inbox, happly⟩ := hsame
    rw [happly] at hacked ⊢
    exact guarantees_of_sameJobs hs rfl rfl rfl rfl le_rfl (fun _ _ h => h) (fun _ _ _ h => h) hacked
      (fun _ => .inl rfl) (fun _ => .inl rfl) fun _ _ => .inl rfl
  | join k member =>
    simp only [CronWrite.apply]
    split
    · exact .refl hs
    · next hfree =>
      obtain ⟨hid, hagent⟩ := not_or.mp hfree
      have hnone : s.members.lookup k = none := by simpa using hid
      have hlookup : ∀ k', (s.members.insert k member).lookup k' = if k' = k then some member else s.members.lookup k' :=
        fun k' => AssocList.lookup_insert_ite _ _ _ _
      have hnew : ∀ k' m, s.members.lookup k' = some m → m.agentId ≠ member.agentId := by
        intro k' m hm heq
        exact hagent (heq ▸ memberOfAgent_isSome hm)
      refine guarantees_of_members hs (fun k' m hm => ⟨m, ?_, rfl⟩) (fun k₁ k₂ m₁ m₂ h₁ h₂ heq => ?_) fun k' => ?_
      · rw [hlookup, if_neg]
        · exact hm
        · rintro rfl
          rw [hnone] at hm
          cases hm
      · rw [hlookup] at h₁ h₂
        split at h₁ <;> split at h₂
        · next hk₁ hk₂ => rw [hk₁, hk₂]
        · obtain rfl := Option.some.inj h₁
          exact absurd heq.symm (hnew k₂ m₂ h₂)
        · obtain rfl := Option.some.inj h₂
          exact absurd heq (hnew k₁ m₁ h₁)
        · exact hs.humans k₁ k₂ m₁ m₂ h₁ h₂ heq
      · rw [hlookup]
        split
        · next hk => exact .inr (by simp [CronWrite.locks, hk])
        · exact .inl rfl
  | memberStatus k status =>
    simp only [CronWrite.apply]
    cases hmember : s.members.lookup k with
    | none => exact .refl hs
    | some member =>
      have hlookup : ∀ k', (s.members.insert k { member with status := status }).lookup k' =
          if k' = k then some { member with status := status } else s.members.lookup k' := fun k' =>
            AssocList.lookup_insert_ite _ _ _ _
      have hback : ∀ k' m, (s.members.insert k { member with status := status }).lookup k' = some m →
          ∃ m', s.members.lookup k' = some m' ∧ m'.agentId = m.agentId := by
        intro k' m hm
        rw [hlookup] at hm
        split at hm
        · next hk =>
          obtain rfl := Option.some.inj hm
          exact ⟨member, hk ▸ hmember, rfl⟩
        · exact ⟨m, hm, rfl⟩
      refine guarantees_of_members hs (fun k' m hm => ?_) (fun k₁ k₂ m₁ m₂ h₁ h₂ heq => ?_) fun k' => ?_
      · rw [hlookup]
        split
        · next hk =>
          subst hk
          obtain rfl := Option.some.inj (hmember.symm.trans hm)
          exact ⟨_, rfl, rfl⟩
        · exact ⟨m, hm, rfl⟩
      · obtain ⟨m₁', h₁', hagent₁⟩ := hback k₁ m₁ h₁
        obtain ⟨m₂', h₂', hagent₂⟩ := hback k₂ m₂ h₂
        exact hs.humans k₁ k₂ m₁' m₂' h₁' h₂' (by rw [hagent₁, hagent₂, heq])
      · rw [hlookup]
        split
        · next hk => exact .inr (by simp [CronWrite.locks, hk])
        · exact .inl rfl

/-! ## Revisions -/

/-- A commit that leaves the jobs is revised. -/
theorem revised_of_same (h : ∀ k, t.jobs.lookup k = s.jobs.lookup k) : Revised s t := by
  intro k row row' hrow hrow'
  obtain rfl : row = row' := Option.some.inj ((hrow.symm.trans (h k).symm).trans hrow')
  exact ⟨rfl, .inr ⟨rfl, rfl⟩⟩

/-- A commit without writes is good. -/
theorem good_refl (call : CronCall) (s : CronStore) : call.Good s s where
  revised := revised_of_same fun _ => rfl
  licensed := by
    cases call with
    | createCronJob | updateCronJob | deleteCronJob => exact .inl rfl
    | postEngagement | sweepCronJobs => exact fun _ => .inl rfl
    | writeOther => exact rfl

/-- The write of one job is revised when its row is. -/
theorem revised_of_jobWrite {fired : Option (String × Int)} (hw : JobWrite fired id row' s t)
    (h : ∀ row, s.jobs.lookup id = some row → row'.toCronJobIdentity = row.toCronJobIdentity ∧
      (row'.revision = row.revision + 1 ∨ row'.revision = row.revision ∧ row'.configuration = row.configuration)) : Revised s t := by
  intro k row₁ row₂ hrow₁ hrow₂
  rw [hw.jobs k] at hrow₂
  split at hrow₂
  · next hk =>
    subst hk
    obtain rfl := Option.some.inj hrow₂
    exact h row₁ hrow₁
  · obtain rfl : row₁ = row₂ := Option.some.inj (hrow₁.symm.trans hrow₂)
    exact ⟨rfl, .inr ⟨rfl, rfl⟩⟩

end ScheduledJobsAux

end FirstTree
