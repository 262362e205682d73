import FirstTree.Lib.Scripts
import FirstTree.Lemmas.CronSchedule
import FirstTree.Lemmas.ScheduledJobs
import FirstTree.Server.ScheduledJobs

/-!
# The scripts of the scheduled jobs meet the discipline

A specification of each part of the scripts, by what it knows of the store under the locks it has taken, and from these that every
commit of every call does its part for the others and is licensed.
-/

namespace FirstTree

open Transactions Scripts CronSchedule ScheduledJobs

namespace ScheduledJobsAux

/-- A script that meets the discipline, with good commits. -/
abbrev Ok {α : Type} (good : CronStore → CronStore → Prop)
    (post : Except CronError α → List CronLock → (CronStore → CronStore) → CronStore → Prop)
    (p : CronScript α) (held : List CronLock) (own : CronStore → CronStore) (s : CronStore) : Prop :=
  Script.Meets cronDiscipline CronLock.conflicts (fun _ _ => True) good post p held own s

/-- The end of a transaction of such a script. -/
abbrev Ends {α : Type} (good : CronStore → CronStore → Prop)
    (post : Except CronError α → List CronLock → (CronStore → CronStore) → CronStore → Prop) :=
  Script.Settled cronDiscipline CronLock.conflicts (fun _ _ => True) good post

/-- What a script that holds locks knows of a later store. -/
abbrev Later (held : List CronLock) (s t : CronStore) : Prop := cronDiscipline.Meanwhile held s t

/-- A transaction may commit what it has written, now or later. -/
def Committable (good : CronStore → CronStore → Prop) (held : List CronLock) (own : CronStore → CronStore) (s : CronStore) : Prop :=
  ∀ t, Later held s t → cronDiscipline.Guarantees CronLock.conflicts held t (own t) ∧ good t (own t)

variable {α : Type} {good : CronStore → CronStore → Prop} {held held' : List CronLock} {own : CronStore → CronStore} {s t : CronStore}
  {post : Except CronError α → List CronLock → (CronStore → CronStore) → CronStore → Prop}

/-- The end of a transaction that may commit. -/
theorem ends_ok {a : α} (h : Committable good held own s) (hpost : ∀ t, Later held s t → post (.ok a) [] id (own t)) :
    Ends good post (.ok a) held own s :=
  fun t ht _ => ⟨(h t ht).1, (h t ht).2, hpost t ht⟩

/-- A transaction that may commit may commit later. -/
theorem Committable.later (h : Committable good held own s) (ht : Later held s t) : Committable good held own t :=
  fun u hu => h u (ht.trans hu)

/-- A transaction that has written nothing may commit. -/
theorem committable_id (hgood : ∀ t, good t t) (held : List CronLock) (s : CronStore) : Committable good held id s :=
  fun t ht => ⟨.refl ht.inv, hgood t⟩

/-! ## Reads -/

/-- The last trigger of a job is acknowledged, or there is none. -/
def Clear (job : CronJobRow) (s : CronStore) : Prop :=
  ∀ m, job.lastTriggerMessageId = some m → ∃ inboxId, Acked (inboxId, m, job.controlChatId) s

/-- A clear job stays clear. -/
theorem Clear.later {job : CronJobRow} (h : Clear job s) (ht : Later held s t) : Clear job t := by
  intro m hm
  obtain ⟨inboxId, hacked⟩ := h m hm
  exact ⟨inboxId, ht.always.acked _ hacked⟩

/-- What is found of the last trigger of a job. -/
theorem ok_loadOutstanding {job : CronJobRow}
    {post : Except CronError CronOutstanding → List CronLock → (CronStore → CronStore) → CronStore → Prop} (hs : ScheduleOk s)
    (hpost : ∀ r t, Later held s t → (r = .none → Clear job (own t)) → post (.ok r) held own t) :
    Ok good post (loadOutstanding job) held own s := by
  unfold loadOutstanding
  cases hlast : job.lastTriggerMessageId with
  | none => exact hpost _ s (.refl hs) fun _ m hm => by simp [hlast] at hm
  | some messageId =>
    simp only [Script.meets_bind, Script.meets_read, Script.meets_onOk_ok]
    intro t₁ ht₁
    cases hagent : (own t₁).agents.lookup job.agentId with
    | none => exact hpost _ t₁ ht₁ (by simp)
    | some agent =>
      simp only [Script.meets_bind, Script.meets_read, Script.meets_onOk_ok]
      intro t₂ ht₂
      split
      · exact hpost _ t₂ (ht₁.trans ht₂) (by simp)
      · simp only [Script.meets_bind, Script.meets_read, Script.meets_onOk_ok]
        intro t₃ ht₃
        have hlater := (ht₁.trans ht₂).trans ht₃
        cases hentry : ((own t₃).inbox.lookup (agent.inboxId, messageId, job.controlChatId)).filter fun e => e.notify with
        | none => exact hpost _ t₃ hlater (by simp)
        | some entry =>
          dsimp only
          split
          · next hstatus =>
            refine hpost _ t₃ hlater fun _ m hm => ⟨agent.inboxId, ?_⟩
            obtain rfl : messageId = m := Option.some.inj (hlast.symm.trans hm)
            obtain ⟨hfound, hnotify⟩ := Option.filter_eq_some_iff.mp hentry
            obtain ⟨status, notify⟩ := entry
            obtain rfl : status = .acked := hstatus
            obtain rfl : notify = true := hnotify
            exact hfound
          · exact hpost _ t₃ hlater (by simp)

/-- The projection of a job only reads. -/
theorem ok_projectCronJob {key : String} {job : CronJobRow}
    {post : Except CronError CronJob → List CronLock → (CronStore → CronStore) → CronStore → Prop} (hs : ScheduleOk s)
    (hpost : ∀ r t, Later held s t → post (.ok r) held own t) : Ok good post (projectCronJob key job) held own s := by
  simp only [projectCronJob, Script.meets_bind]
  refine ok_loadOutstanding hs fun r t ht _ => ?_
  simp only [Script.meets_onOk_ok]
  cases r <;> exact hpost _ t ht

/-- What a validated job shows: its owner is a member, who has not deleted the chat. -/
def Validated (job : CronJobIdentity) (s : CronStore) : Prop :=
  ∃ owner, s.members.lookup job.ownerMemberId = some owner ∧
    s.engagement.lookup (job.controlChatId, owner.agentId) ≠ some .deleted

/-- A job whose owner's lock is held stays validated. -/
theorem Validated.later {job : CronJobIdentity} (h : Validated job s) (hlock : .ownerChat job.controlChatId job.ownerMemberId ∈ held)
    (ht : Later held s t) : Validated job t := by
  obtain ⟨owner, howner, hengaged⟩ := h
  obtain ⟨⟨owner', howner', hagent⟩, hdeleted⟩ := (ht.protects _ hlock).engaged owner howner
  exact ⟨owner', howner', by rw [hagent]; exact fun h => hengaged (hdeleted h)⟩

/-- The owner of a validated job has not deleted the chat. -/
theorem Validated.engaged {job : CronJobIdentity} (h : Validated job s) {member : CronMember}
    (hmember : s.members.lookup job.ownerMemberId = some member) :
    s.engagement.lookup (job.controlChatId, member.agentId) ≠ some .deleted := by
  obtain ⟨owner, howner, hengaged⟩ := h
  obtain rfl := Option.some.inj (howner.symm.trans hmember)
  exact hengaged

/-- A validation that succeeds has validated the job, for the owner it names. -/
theorem ok_revalidateOwnerChatAgent {job : CronJobIdentity} {chatMode : CronChatMode}
    {post : Except CronError (Except CronJobPauseReason AuthorizationSnapshot) → List CronLock → (CronStore → CronStore) →
      CronStore → Prop}
    (hs : ScheduleOk s)
    (hok : ∀ (snapshot : AuthorizationSnapshot) t, Later held s t → Validated job t → snapshot.ownerMemberId = job.ownerMemberId →
      post (.ok (.ok snapshot)) held id t)
    (herror : ∀ reason t, Later held s t → post (.ok (.error reason)) held id t) :
    Ok good post (revalidateOwnerChatAgent job chatMode) held id s := by
  unfold revalidateOwnerChatAgent
  split
  · exact herror _ s (.refl hs)
  simp only [Script.meets_bind, Script.meets_read, Script.meets_onOk_ok]
  intro t₁ ht₁
  cases hchat : (id t₁).routes.chats.lookup job.controlChatId with
  | none => exact herror _ t₁ ht₁
  | some organizationId =>
    simp only [Script.meets_bind, Script.meets_read, Script.meets_onOk_ok]
    intro t₂ ht₂
    have h₂ := ht₁.trans ht₂
    cases howner : ((id t₂).members.lookup job.ownerMemberId).filter fun m =>
        decide (m.status = .active ∧ m.organizationId = organizationId) with
    | none => exact herror _ t₂ h₂
    | some owner =>
      simp only [Script.meets_bind, Script.meets_read, Script.meets_onOk_ok]
      intro t₃ ht₃
      have h₃ := h₂.trans ht₃
      cases hagent : ((id t₃).agents.lookup job.agentId).filter fun a =>
          decide (a.status = .active ∧ a.organizationId = organizationId) with
      | none => exact herror _ t₃ h₃
      | some agent =>
        dsimp only
        split
        · exact herror _ t₃ h₃
        simp only [Script.meets_bind, Script.meets_read, Script.meets_onOk_ok]
        intro t₄ ht₄
        have h₄ := h₃.trans ht₄
        split
        · exact herror _ t₄ h₄
        simp only [Script.meets_bind, Script.meets_read, Script.meets_onOk_ok]
        intro t₅ ht₅
        have h₅ := h₄.trans ht₅
        split
        · exact herror _ t₅ h₅
        simp only [Script.meets_bind, Script.meets_read, Script.meets_onOk_ok]
        intro t₆ ht₆
        split
        · exact herror _ t₆ (h₅.trans ht₆)
        · next hengaged =>
          refine hok _ t₆ (h₅.trans ht₆) ?_ rfl
          obtain ⟨hfound, _⟩ := Option.filter_eq_some_iff.mp howner
          obtain ⟨owner', howner', hsame⟩ := (((ht₃.trans ht₄).trans ht₅).trans ht₆).always.members _ owner hfound
          exact ⟨owner', howner', by rw [hsame]; exact hengaged⟩

/-! ## Locks and access -/

/-- Access to a route holds as long as some locks are held. -/
def AccessHeld (chatId agentId memberId humanAgentId : String) (held : List CronLock) (s : CronStore) : Prop :=
  ∀ t, Later held s t → RouteAccess chatId agentId memberId humanAgentId t

/-- Access that holds under some locks holds under more, and later. -/
theorem AccessHeld.later {chatId agentId memberId humanAgentId : String} (h : AccessHeld chatId agentId memberId humanAgentId held s)
    (ht : Later held s t) (hsub : held ⊆ held') : AccessHeld chatId agentId memberId humanAgentId held' t :=
  fun u hu => h u (ht.trans (hu.subset hsub))

/-- What is found of a row that its lock protects stays. -/
theorem isSpeaker_later {chatId agentId : String} (h : isSpeaker chatId agentId s = true) (hlock : .speaker chatId agentId ∈ held)
    (ht : Later held s t) : isSpeaker chatId agentId t = true := by
  have hsame : t.memberships.lookup (chatId, agentId) = s.memberships.lookup (chatId, agentId) := ht.protects _ hlock
  simpa only [isSpeaker, hsame] using h

/-- The locks of the speakers of a route. -/
theorem ok_lockSpeakers {chatId humanAgentId : String} {agentIds : List String}
    {post : Except CronError Unit → List CronLock → (CronStore → CronStore) → CronStore → Prop} (hs : ScheduleOk s)
    (hok : ∀ held' t, Later held s t → held ⊆ held' →
      (∀ a ∈ agentIds, isSpeaker chatId a t = true ∧ .speaker chatId a ∈ held') → post (.ok ()) held' id t)
    (herror : ∀ e held' own t, post (.error e) held' own t) :
    Ok good post (Script.forEach (lockSpeaker chatId humanAgentId) agentIds) held id s := by
  refine Script.meets_forEach (I := fun finished held' own t => own = id ∧ Later held s t ∧ held ⊆ held' ∧
    ∀ a ∈ finished, isSpeaker chatId a t = true ∧ .speaker chatId a ∈ held') ?_ ?_ ?_
  · rintro finished a rest rfl held₁ own₁ t₁ ⟨rfl, ht₁, hsub, hfinished⟩
    simp only [lockSpeaker, Script.meets_bind, Script.meets_lockAndRead, Script.meets_onOk_ok, Script.meets_check]
    intro t₂ ht₂
    cases hspeaks : isSpeaker chatId a (id t₂) with
    | false => exact herror _ _ _ _
    | true =>
      refine ⟨trivial, ht₁.trans (ht₂.subset hsub), List.Subset.trans hsub (List.subset_append_left _ _), fun b hb => ?_⟩
      rcases List.mem_append.mp hb with hb | hb
      · obtain ⟨hbefore, hlock⟩ := hfinished b hb
        exact ⟨isSpeaker_later hbefore hlock ht₂, List.mem_append_left _ hlock⟩
      · obtain rfl := List.mem_singleton.mp hb
        exact ⟨hspeaks, by simp⟩
  · rintro held₁ own₁ t₁ ⟨rfl, ht₁, hsub, hfinished⟩
    exact hok held₁ t₁ ht₁ hsub hfinished
  · exact ⟨rfl, .refl hs, List.Subset.refl _, fun _ h => absurd h List.not_mem_nil⟩

/-- The speakers of a route are locked both, in either order. -/
theorem mem_speakerOrder (localeCompare : String → String → Int) (a b : String) :
    a ∈ speakerOrder localeCompare a b ∧ b ∈ speakerOrder localeCompare a b := by
  unfold speakerOrder
  split <;> simp

/-- A route that grants access holds the locks that keep it. -/
theorem ok_assertCronAgentRouteAccess {localeCompare : String → String → Int} {chatId agentId memberId humanAgentId : String}
    {post : Except CronError Unit → List CronLock → (CronStore → CronStore) → CronStore → Prop}
    (hok : ∀ held' t, Later held s t → held ⊆ held' → AccessHeld chatId agentId memberId humanAgentId held' t →
      post (.ok ()) held' id t)
    (herror : ∀ e held' own t, post (.error e) held' own t) :
    Ok good post (assertCronAgentRouteAccess localeCompare chatId agentId memberId humanAgentId) held id s := by
  simp only [assertCronAgentRouteAccess, Script.meets_bind, Script.meets_lockAndRead, Script.meets_onOk_ok, Script.meets_check]
  intro t₁ ht₁
  cases hmember : activeMember memberId (id t₁) with
  | none => exact herror _ _ _ _
  | some member =>
    simp only [Option.isSome_some, if_true, Script.meets_onOk_ok, Script.meets_bind, Script.meets_lockAndRead, Script.meets_check]
    intro t₂ ht₂
    cases hagent : (id t₂).agents.lookup agentId with
    | none => exact herror _ _ _ _
    | some agent =>
      cases hmanages : (some agent).filter fun a : CronAgent => decide (a.status = .active ∧ a.managerId = memberId) with
      | none => exact herror _ _ _ _
      | some agent' =>
        simp only [Option.isSome_some, if_true, Script.meets_onOk_ok]
        refine ok_lockSpeakers ht₂.inv (fun held' t ht hsub hspeakers => hok held' t ?_ ?_ ?_) herror
        · exact ht₁.trans ((ht₂.subset (List.subset_append_left _ _)).trans
            (ht.subset (List.Subset.trans (List.subset_append_left _ _) (List.subset_append_left _ _))))
        · exact List.Subset.trans (List.Subset.trans (List.subset_append_left _ _) (List.subset_append_left _ _)) hsub
        · obtain ⟨hfound, hstatus⟩ := Option.filter_eq_some_iff.mp hmember
          obtain ⟨hsome, hmanaged⟩ := Option.filter_eq_some_iff.mp hmanages
          obtain rfl := Option.some.inj hsome
          obtain ⟨hactive, hmanager⟩ := of_decide_eq_true hmanaged
          have hmember₂ : t₂.members.lookup memberId = some member := (ht₂.protects (.member memberId) (by simp)).trans hfound
          intro u hu
          have hlater : Later ((held ++ [.member memberId]) ++ [.agent agentId]) t₂ u := ht.trans (hu.subset hsub)
          have hmemberᵤ : u.members.lookup memberId = some member := (hlater.protects (.member memberId) (by simp)).trans hmember₂
          have hagentᵤ : u.agents.lookup agentId = some agent := (hlater.protects (.agent agentId) (by simp)).trans hagent
          have hspeaks : ∀ a ∈ speakerOrder localeCompare humanAgentId agentId, isSpeaker chatId a u = true := by
            intro a ha
            obtain ⟨hbefore, hlock⟩ := hspeakers a ha
            exact isSpeaker_later hbefore hlock hu
          exact ⟨⟨member, hmemberᵤ, of_decide_eq_true hstatus⟩, ⟨agent, hagentᵤ, hactive, hmanager⟩,
            hspeaks _ (mem_speakerOrder _ _ _).1, hspeaks _ (mem_speakerOrder _ _ _).2⟩

/-- The barrier of an owner's jobs in a chat is taken. -/
theorem ok_lockOwnerChatCronBarrier {chatId ownerMemberId : String}
    {post : Except CronError Unit → List CronLock → (CronStore → CronStore) → CronStore → Prop}
    (hok : ∀ t, Later held s t → post (.ok ()) (held ++ [CronLock.ownerChat chatId ownerMemberId]) own t) :
    Ok good post (lockOwnerChatCronBarrier chatId ownerMemberId) held own s := by
  simp only [lockOwnerChatCronBarrier, Script.meets_lockAndRead]
  exact hok

/-- What an update or a deletion knows of its route under the locks it has taken. -/
structure RouteLocked (input : CronJobTarget) (peek : CronJobIdentity) (resumes : Bool) (held : List CronLock) (s : CronStore) :
    Prop where
  access : ∀ memberId humanAgentId, input.callerMemberId = some memberId → input.callerHumanAgentId = some humanAgentId →
    AccessHeld peek.controlChatId peek.agentId memberId humanAgentId held s
  barrier : resumes = true → .ownerChat peek.controlChatId peek.ownerMemberId ∈ held

/-- The locks of the route of an update or a deletion. -/
theorem ok_lockTargetRoute {localeCompare : String → String → Int} {input : CronJobTarget} {peek : CronJobIdentity} {resumes : Bool}
    {post : Except CronError Unit → List CronLock → (CronStore → CronStore) → CronStore → Prop} (hs : ScheduleOk s)
    (hok : ∀ held' t, Later held s t → held ⊆ held' → RouteLocked input peek resumes held' t → post (.ok ()) held' id t)
    (herror : ∀ e held' own t, post (.error e) held' own t) :
    Ok good post (lockTargetRoute localeCompare input peek resumes) held id s := by
  unfold lockTargetRoute
  split
  · next memberId humanAgentId hmember hhuman =>
    simp only [Script.meets_bind]
    refine ok_assertCronAgentRouteAccess (fun held₁ t₁ ht₁ hsub₁ haccess => ?_) herror
    simp only [Script.meets_onOk_ok, Script.meets_bind]
    refine ok_lockOwnerChatCronBarrier fun t₂ ht₂ => ?_
    simp only [assertCronOwnerEngagementAllowed, Script.meets_onOk_ok, Script.meets_bind, Script.meets_read, Script.meets_check]
    intro t₃ ht₃
    split
    · exact herror _ _ _ _
    · have hlater : Later held₁ t₁ t₃ := ht₂.trans (ht₃.subset (List.subset_append_left _ _))
      refine hok _ t₃ (ht₁.trans (hlater.subset hsub₁)) (List.Subset.trans hsub₁ (List.subset_append_left _ _))
        ⟨fun m h hm hh => ?_, fun _ => by simp⟩
      obtain rfl := Option.some.inj (hmember.symm.trans hm)
      obtain rfl := Option.some.inj (hhuman.symm.trans hh)
      exact haccess.later hlater (List.subset_append_left _ _)
  · next hcaller =>
    have hnone : ∀ m h, input.callerMemberId = some m → input.callerHumanAgentId = some h → False :=
      fun m h hm hh => hcaller m h hm hh
    split
    · refine ok_lockOwnerChatCronBarrier fun t₁ ht₁ =>
        hok _ t₁ ht₁ (List.subset_append_left _ _) ⟨fun m h hm hh => (hnone m h hm hh).elim, fun _ => by simp⟩
    · next hresumes =>
      exact hok held s (.refl hs) (List.Subset.refl _) ⟨fun m h hm hh => (hnone m h hm hh).elim, fun h => absurd h hresumes⟩

/-- What an update or a deletion knows of its job under the locks it has taken. -/
structure TargetLocked (input : CronJobTarget) (resumes : Bool) (job : CronJobRow) (held : List CronLock) (s : CronStore) : Prop where
  row : s.jobs.lookup input.jobId = some job
  locked : .job input.jobId ∈ held
  revision : job.revision = input.expectedRevision
  owner : ∀ ownerMemberId, input.ownerMemberId = some ownerMemberId → job.ownerMemberId = ownerMemberId
  access : ∀ memberId humanAgentId, input.callerMemberId = some memberId → input.callerHumanAgentId = some humanAgentId →
    job.ownerMemberId = memberId ∧ AccessHeld job.controlChatId job.agentId memberId humanAgentId held s
  barrier : resumes = true → .ownerChat job.controlChatId job.ownerMemberId ∈ held

/-- A target that passes its checks is of the owner and the caller it names. -/
theorem checkTarget_ok {verb : String} {input : CronJobTarget} {job : CronJobIdentity} (h : checkTarget verb input job = .ok ()) :
    (∀ ownerMemberId, input.ownerMemberId = some ownerMemberId → job.ownerMemberId = ownerMemberId) ∧
      ∀ memberId, input.callerMemberId = some memberId → job.ownerMemberId = memberId := by
  unfold checkTarget at h
  split at h
  · cases h
  split at h
  · cases h
  split at h
  · cases h
  next howner hcaller =>
    refine ⟨fun o ho => ?_, fun m hm => ?_⟩
    · by_contra hne
      exact howner (by simp [ho, Option.filter, Ne.symm hne])
    · by_contra hne
      exact hcaller (by simp [hm, Option.filter, Ne.symm hne])

/-- The job of an update or a deletion is locked, and is the one of its peek. -/
theorem ok_lockTarget {localeCompare : String → String → Int} {verb : String} {input : CronJobTarget} {resumes : Bool}
    {post : Except CronError CronJobRow → List CronLock → (CronStore → CronStore) → CronStore → Prop}
    (hok : ∀ held' job t, Later held s t → TargetLocked input resumes job held' t → post (.ok job) held' id t)
    (herror : ∀ e held' own t, post (.error e) held' own t) :
    Ok good post (lockTarget localeCompare verb input resumes) held id s := by
  simp only [lockTarget, Script.meets_bind, Script.meets_read, Script.meets_onOk_ok, Script.meets_check]
  intro t₁ ht₁
  cases hpeek : (id t₁).jobs.lookup input.jobId with
  | none => exact herror _ _ _ _
  | some peek =>
    simp only [foundOr404, Script.meets_onOk_ok, Script.meets_bind, Script.meets_check]
    cases hcheck : checkTarget verb input peek.toCronJobIdentity with
    | error e => exact herror _ _ _ _
    | ok _ =>
      simp only [Script.meets_onOk_ok, Script.meets_bind]
      refine ok_lockTargetRoute ht₁.inv (fun held₂ t₂ ht₂ hsub₂ hroute => ?_) herror
      simp only [Script.meets_onOk_ok, Script.meets_bind, lockJob, Script.meets_lockAndRead, Script.meets_check]
      intro t₃ ht₃
      cases hjob : (id t₃).jobs.lookup input.jobId with
      | none => exact herror _ _ _ _
      | some job =>
        simp only [Option.isSome_some, if_true, foundOr404, Script.meets_onOk_ok, Script.meets_bind, Script.meets_check]
        cases hcheck' : checkTarget verb input job.toCronJobIdentity with
        | error e => exact herror _ _ _ _
        | ok _ =>
          simp only [Script.meets_onOk_ok, Script.meets_bind, Script.meets_check]
          cases hrevision : assertRevision job input.expectedRevision with
          | error e => exact herror _ _ _ _
          | ok _ =>
            simp only [Script.meets_onOk_ok, Script.meets_pure]
            have hlater : Later held t₁ t₃ := ht₂.trans (ht₃.subset hsub₂)
            have hsame : job.toCronJobIdentity = peek.toCronJobIdentity := by
              have hbefore := hlater.always.identities _ _ (ht₁.inv.identity _ peek hpeek)
              exact Option.some.inj ((ht₃.inv.identity _ job hjob).symm.trans hbefore)
            obtain ⟨howner, hcaller⟩ := checkTarget_ok hcheck'
            refine hok _ job t₃ (ht₁.trans hlater)
              ⟨hjob, by simp, ?_, howner, fun m h hm hh => ⟨hcaller m hm, ?_⟩, fun hresumes => ?_⟩
            · unfold assertRevision at hrevision
              split at hrevision
              · cases hrevision
              · next heq => exact not_not.mp heq
            · have haccess := (hroute.access m h hm hh).later ht₃ (List.subset_append_left _ [.job input.jobId])
              rwa [← hsame] at haccess
            · have hbarrier := hroute.barrier hresumes
              rw [← hsame] at hbarrier
              exact List.mem_append_left _ hbarrier

/-- What is known of a target stays known while its locks are held. -/
theorem TargetLocked.later {input : CronJobTarget} {resumes : Bool} {job : CronJobRow} (h : TargetLocked input resumes job held s)
    (ht : Later held s t) : TargetLocked input resumes job held t where
  row := (ht.protects _ h.locked).row.trans h.row
  locked := h.locked
  revision := h.revision
  owner := h.owner
  access m a hm ha := ⟨(h.access m a hm ha).1, (h.access m a hm ha).2.later ht (List.Subset.refl _)⟩
  barrier := h.barrier

/-- A commit that changes a locked target alone has its licence. -/
theorem TargetLocked.licence {input : CronJobTarget} {resumes : Bool} {job : CronJobRow} (h : TargetLocked input resumes job held s)
    (hs : ScheduleOk s) (hothers : ∀ k, k ≠ input.jobId → t.jobs.lookup k = s.jobs.lookup k) : Licence input s t where
  revision := ⟨job, h.row, h.revision, h.owner, fun m a hm ha => ⟨(h.access m a hm ha).1, (h.access m a hm ha).2 s (.refl hs)⟩⟩
  others := hothers

/-- A deletion meets the discipline. -/
theorem ok_deleteCronJob {localeCompare : String → String → Int} (input : CronJobTarget) (s : CronStore) :
    Ok (CronCall.deleteCronJob input).Good (fun _ _ _ _ => True) (deleteCronJob localeCompare input) [] id s := by
  simp only [deleteCronJob, Script.meets_transaction, Script.meets_bind]
  refine ok_lockTarget (fun held job t _ htarget => ?_) fun _ _ _ _ => trivial
  simp only [Script.meets_onOk_ok, Script.meets_bind, Script.meets_exec, Script.meets_pure]
  intro t₁ ht₁
  refine ends_ok (fun u hu => ?_) fun _ _ => trivial
  have htarget' : TargetLocked input false job held u := (htarget.later ht₁).later (hu.subset (List.subset_append_left _ _))
  have hothers : ∀ k, k ≠ input.jobId → (dropJob input.jobId u).jobs.lookup k = u.jobs.lookup k := fun k hk =>
      AList.lookup_erase_ne hk
  refine ⟨guarantees_dropJob hu.inv (by simp), fun k row row' hrow hrow' => ?_, .inr (htarget'.licence hu.inv hothers)⟩
  obtain ⟨_, hbefore⟩ := lookup_dropJob hrow'
  obtain rfl : row = row' := Option.some.inj (hrow.symm.trans hbefore)
  exact ⟨rfl, .inr ⟨rfl, rfl⟩⟩

/-! ## Updates -/

section Update

variable {body : UpdateCronJobRequest} {job : CronJobRow} {normalized : Option Schedulable}

/-- An updated job goes on as it did, or as the schedule that has been normalized. -/
theorem updatedJob_nextRunAt {next : Int} (h : (updatedJob body job normalized).nextRunAt = some next) :
    job.nextRunAt = some next ∨ ∃ n, normalized = some n ∧ n.nextRunAt = next := by
  simp only [updatedJob] at h
  split at h
  · cases h
  have hkept : (requestedState body job).2.2 = some next → job.nextRunAt = some next := by
    unfold requestedState
    intro hnext
    split at hnext
    · cases hnext
    · exact hnext
    · exact hnext
  cases normalized with
  | none => exact .inl (hkept h)
  | some n =>
    dsimp only at h
    split at h
    · exact .inr ⟨n, rfl, Option.some.inj h⟩
    · exact .inl (hkept h)

/-- An updated job that is active was so, or is asked to be. -/
theorem updatedJob_active (h : (updatedJob body job normalized).state = .active) : job.state = .active ∨
    body.state = some .active := by
  have hstate : (requestedState body job).1 = .active := h
  unfold requestedState at hstate
  split at hstate
  · cases hstate
  · next hbody => exact .inr hbody
  · exact .inl hstate

/-- An updated job is in shape, when one that is resumed has a schedule that has been normalized. -/
theorem jobShape_updatedJob (hshape : JobShape job) (hresumed : resuming body job = true → normalized.isSome = true) :
    JobShape (updatedJob body job normalized) := by
  have hstate : (updatedJob body job normalized).state = (requestedState body job).1 := rfl
  have hreason : (updatedJob body job normalized).stateReason = (requestedState body job).2.1 := rfl
  refine ⟨⟨fun hactive => ?_, fun hnext => ?_⟩, ?_, Nat.succ_pos _⟩
  · have hrequested : (requestedState body job).1 = .active := hactive
    have hkept : job.state = .active → (requestedState body job).2.2.isSome = true := by
      intro hbefore
      unfold requestedState at hrequested ⊢
      split at hrequested
      · cases hrequested
      · exact hshape.nextRunAt.mp hbefore
      · exact hshape.nextRunAt.mp hbefore
    simp only [updatedJob, hrequested, reduceCtorEq, if_false, true_and]
    cases normalized with
    | none =>
      rcases updatedJob_active hactive with hbefore | hbody
      · exact hkept hbefore
      · by_cases hbefore : job.state = .active
        · exact hkept hbefore
        · simpa using hresumed (by simp [resuming, hbody, hbefore])
    | some n =>
      dsimp only
      split
      · rfl
      · next hkeep =>
        by_cases hbefore : job.state = .active
        · exact hkept hbefore
        · rcases updatedJob_active hactive with h | hbody
          · exact absurd h hbefore
          · exact absurd (.inl (by simp [resuming, hbody, hbefore])) hkeep
  · by_contra hpaused
    have hrequested : (requestedState body job).1 = .paused := by
      cases hcase : (requestedState body job).1 with
      | active => exact absurd hcase hpaused
      | paused => rfl
    simp [updatedJob, hrequested] at hnext
  · rw [hstate, hreason]
    unfold requestedState
    split
    · simp
    · simp
    · exact hshape.stateReason

/-- An update that resumes its job has validated it. -/
theorem ok_revalidateForResume {post : Except CronError Unit → List CronLock → (CronStore → CronStore) → CronStore → Prop}
    (hs : ScheduleOk s)
    (hok : ∀ t, Later held s t → (body.state = some .active → Validated job.toCronJobIdentity t) → post (.ok ()) held id t)
    (herror : ∀ e held' own t, post (.error e) held' own t) : Ok good post (revalidateForResume body job) held id s := by
  unfold revalidateForResume
  split
  · simp only [Script.meets_bind]
    refine ok_revalidateOwnerChatAgent hs (fun snapshot t ht hvalid _ => ?_) fun reason t _ => ?_
    · exact hok t ht fun _ => hvalid
    · exact herror _ _ _ _
  · next hbody => exact hok s (.refl hs) fun h => absurd h hbody

/-- A schedule is normalized for an update that resumes its job, and goes on later than the clock of the database. -/
theorem ok_normalizedFor {lib : CronLibrary} (hlib : GoesOn lib)
    {post : Except CronError (Option Schedulable) → List CronLock → (CronStore → CronStore) → CronStore → Prop} (hs : ScheduleOk s)
    (hok : ∀ normalized t, Later held s t → (∀ n, normalized = some n → t.clock < n.nextRunAt) →
      (resuming body job = true → normalized.isSome = true) → post (.ok normalized) held id t)
    (herror : ∀ e held' own t, post (.error e) held' own t) : Ok good post (normalizedFor lib body job) held id s := by
  unfold normalizedFor
  split
  · simp only [Script.meets_bind, databaseNow, Script.meets_read, Script.meets_onOk_ok, Script.meets_check]
    intro t ht
    unfold schedulable
    cases hschedule : assertSchedulable lib (body.schedule.getD job.cronExpression) (body.timezone.getD job.timezone)
      (id t).clock with
    | error e => cases e <;> exact herror _ _ _ _
    | ok n =>
      refine hok (some n) t ht (fun m hm => ?_) fun _ => rfl
      obtain rfl := Option.some.inj hm
      exact CronScheduleAux.lt_of_assertSchedulable hlib hschedule
  · next hneeded => exact hok none s (.refl hs) (by simp) fun h => absurd (by simp [h]) hneeded

/-- The triggers of a job whose lock is held are no more than they were. -/
theorem triggers_later {key : String} (hlock : .job key ∈ held) (ht : Later held s t) {m : String} {at_ : Int}
    (h : TriggerOf key m at_ t) : TriggerOf key m at_ s :=
  (ht.protects _ hlock).triggers m at_ h

/-- The write of an update is allowed. -/
theorem jobAllowed_update {input : CronJobTarget} {u : CronStore} (hu : ScheduleOk u)
    (htarget : TargetLocked input (decide (body.state = some .active)) job held u)
    (hvalid : body.state = some .active → Validated job.toCronJobIdentity u)
    (hnormalized : ∀ n, normalized = some n → ∀ m at_, TriggerOf input.jobId m at_ u → at_ < n.nextRunAt)
    (hresumed : resuming body job = true → normalized.isSome = true) (hlocked : held ⊆ held') :
    JobAllowed held' none input.jobId (updatedJob body job normalized) u (setJob input.jobId (updatedJob body job normalized) u) where
  locked := hlocked htarget.locked
  messageLocked _ _ h := by cases h
  known x hx := Option.some.inj (hx.symm.trans (hu.identity _ job htarget.row))
  shape := jobShape_updatedJob (hu.shape _ job htarget.row) hresumed
  owner := hu.owner _ job htarget.row
  due next hnext m at_ hm := by
    have hm' := (triggerOf_congr (s := u) (t := setJob input.jobId (updatedJob body job normalized) u) rfl).mp hm
    rcases updatedJob_nextRunAt hnext with hkept | ⟨n, hn, rfl⟩
    · exact hu.before _ job next htarget.row hkept m at_ hm'
    · exact hnormalized n hn m at_ hm'
  fresh _ _ h := by cases h
  outstanding m at_ hm :=
    hu.outstanding _ job htarget.row m at_
      ((triggerOf_congr (s := u) (t := setJob input.jobId (updatedJob body job normalized) u) rfl).mp hm)
  activated hactive := by
    rcases updatedJob_active hactive with hbefore | hbody
    · exact .inl ⟨job, htarget.row, hbefore, rfl, rfl⟩
    · exact .inr ⟨hlocked (htarget.barrier (decide_eq_true hbody)), fun member hmember => (hvalid hbody).engaged hmember⟩

/-- An update meets the discipline. -/
theorem ok_updateCronJob {lib : CronLibrary} (hlib : GoesOn lib) {localeCompare : String → String → Int} (input : CronJobTarget)
    (body : UpdateCronJobRequest) (s : CronStore) :
    Ok (CronCall.updateCronJob input body).Good (fun _ _ _ _ => True) (updateCronJob lib localeCompare input body) [] id s := by
  simp only [updateCronJob, Script.meets_transaction, Script.meets_bind]
  refine ok_lockTarget (fun held job t ht htarget => ?_) fun _ _ _ _ => trivial
  simp only [Script.meets_onOk_ok, Script.meets_bind]
  refine ok_revalidateForResume ht.inv (fun t₁ ht₁ hvalid => ?_) fun _ _ _ _ => trivial
  simp only [Script.meets_onOk_ok, Script.meets_bind]
  refine ok_normalizedFor hlib ht₁.inv (fun normalized t₂ ht₂ hgoes hresumed => ?_) fun _ _ _ _ => trivial
  simp only [Script.meets_onOk_ok]
  split
  · exact ok_projectCronJob ht₂.inv fun r t₃ _ => ends_ok (committable_id (good_refl _) _ _) fun _ _ => trivial
  simp only [writeUpdate, Script.meets_bind, Script.meets_exec, Script.meets_onOk_ok, Script.meets_check]
  intro t₃ ht₃
  split
  · exact trivial
  · next hfree =>
    simp only [Script.meets_onOk_ok]
    refine ok_projectCronJob ht₃.inv fun r t₄ ht₄ => ends_ok (fun u hu => ?_) fun _ _ => trivial
    have hsub : held ⊆ held ++ (.job input.jobId :: if (updatedJob body job normalized).name ≠ job.name then
        [.jobName job.controlChatId job.agentId (updatedJob body job normalized).name] else []) := List.subset_append_left _ _
    have hlater : Later held t₂ u := ht₃.trans ((ht₄.trans hu).subset hsub)
    have htarget' := (htarget.later (ht₁.trans ht₂)).later hlater
    have hallowed : JobAllowed _ none input.jobId (updatedJob body job normalized) u
        (setJob input.jobId (updatedJob body job normalized) u) := jobAllowed_update hu.inv htarget'
      (fun hbody => (hvalid hbody).later (htarget.barrier (decide_eq_true hbody)) (ht₂.trans hlater))
      (fun n hn m at_ hm => (ht₂.inv.past _ m at_ (triggers_later htarget.locked hlater hm)).1.trans_lt (hgoes n hn)) hresumed hsub
    have hwrite : JobWrite none input.jobId (updatedJob body job normalized) u
        (setJob input.jobId (updatedJob body job normalized) u) := jobWrite_setJob hu.inv htarget'.row rfl
    have hown : modifyJob input.jobId
        (fun row => { updatedJob body job normalized with lastTriggerMessageId := row.lastTriggerMessageId }) u =
        setJob input.jobId (updatedJob body job normalized) u := modifyJob_eq htarget'.row
    have hothers : ∀ k, k ≠ input.jobId → (setJob input.jobId (updatedJob body job normalized) u).jobs.lookup k = u.jobs.lookup k :=
      fun k hk => AList.lookup_insert_ne hk
    simp only [id_eq, hown]
    refine ⟨guarantees_of_jobWrite hu.inv hwrite hallowed, revised_of_jobWrite hwrite fun row hrow => ?_,
      .inr (htarget'.licence hu.inv hothers)⟩
    obtain rfl := Option.some.inj (htarget'.row.symm.trans hrow)
    exact ⟨rfl, .inl rfl⟩

end Update

/-! ## Creation -/

/-- The owner of a job to create, with the locks of its route. -/
theorem ok_lockCreateRoute {localeCompare : String → String → Int} {input : CreateCronJob}
    {post : Except CronError String → List CronLock → (CronStore → CronStore) → CronStore → Prop}
    (hok : ∀ held' ownerMemberId t, Later held s t → .ownerChat input.controlChatId ownerMemberId ∈ held' →
      (∀ memberId humanAgentId, input.callerMemberId = some memberId → input.callerHumanAgentId = some humanAgentId →
        AccessHeld input.controlChatId input.agentId memberId humanAgentId held' t) → post (.ok ownerMemberId) held' id t)
    (herror : ∀ e held' own t, post (.error e) held' own t) : Ok good post (lockCreateRoute localeCompare input) held id s := by
  unfold lockCreateRoute
  split
  · next memberId humanAgentId hmember hhuman =>
    simp only [Script.meets_bind]
    refine ok_assertCronAgentRouteAccess (fun held₁ t₁ ht₁ hsub₁ haccess => ?_) herror
    simp only [Script.meets_onOk_ok, Script.meets_bind]
    refine ok_lockOwnerChatCronBarrier fun t₂ ht₂ => ?_
    simp only [assertCronOwnerEngagementAllowed, Script.meets_onOk_ok, Script.meets_bind, Script.meets_read, Script.meets_check]
    intro t₃ ht₃
    split
    · exact herror _ _ _ _
    · have hlater : Later held₁ t₁ t₃ := ht₂.trans (ht₃.subset (List.subset_append_left _ _))
      refine hok _ memberId t₃ (ht₁.trans (hlater.subset hsub₁)) (by simp) fun m h hm hh => ?_
      obtain rfl := Option.some.inj (hmember.symm.trans hm)
      obtain rfl := Option.some.inj (hhuman.symm.trans hh)
      exact haccess.later hlater (List.subset_append_left _ _)
  · next hcaller =>
    simp only [Script.meets_bind, Script.meets_lockAndRead, Script.meets_onOk_ok]
    intro t₁ ht₁
    split
    · exact herror _ _ _ _
    · next agent _ =>
      simp only [Script.meets_bind]
      refine ok_lockOwnerChatCronBarrier fun t₂ ht₂ => ?_
      exact hok _ agent.managerId t₂ (ht₁.trans (ht₂.subset (List.subset_append_left _ _))) (by simp)
        fun m h hm hh => (hcaller m h hm hh).elim

/-- A conflict of names is resolved by reading. -/
theorem ok_resolveIdenticalCreateConflict {input : CreateCronJob} {scheduled : Schedulable}
    {post : Except CronError (Option CronJob) → List CronLock → (CronStore → CronStore) → CronStore → Prop}
    (hok : ∀ r t, Later held s t → post (.ok r) held own t) :
    Ok good post (resolveIdenticalCreateConflict input scheduled) held own s := by
  simp only [resolveIdenticalCreateConflict, Script.meets_bind, Script.meets_read, Script.meets_onOk_ok]
  intro t₁ ht₁
  split
  · exact hok _ t₁ ht₁
  · split
    · simp only [Script.meets_bind]
      exact ok_projectCronJob ht₁.inv fun r t₂ ht₂ => hok _ t₂ (ht₁.trans ht₂)
    · exact hok _ t₁ ht₁

/-- The write of a new job is allowed. -/
theorem jobAllowed_create {input : CreateCronJob} {ownerMemberId : String} {scheduled : Schedulable} {u : CronStore}
    (hu : ScheduleOk u) (hlocked : .job input.id ∈ held) (hnew : u.identities.lookup input.id = none)
    (hbarrier : .ownerChat input.controlChatId ownerMemberId ∈ held)
    (hvalid : Validated ⟨ownerMemberId, input.controlChatId, input.agentId⟩ u) :
    JobAllowed held none input.id (newJob input ownerMemberId scheduled) u
      (addJob input.id (newJob input ownerMemberId scheduled) u) := by
  have hnone : ∀ m at_, ¬ TriggerOf input.id m at_ u := by
    intro m at_ hm
    have hknown := (hu.past _ m at_ hm).2
    rw [hnew] at hknown
    cases hknown
  have hsame : ∀ m at_, ¬ TriggerOf input.id m at_ (addJob input.id (newJob input ownerMemberId scheduled) u) :=
    fun m at_ hm => hnone m at_ ((triggerOf_congr (s := u) rfl).mp hm)
  refine ⟨hlocked, fun _ _ h => (by cases h), fun x hx => ?_, ⟨by simp [newJob], by simp [newJob], Nat.one_pos⟩, ?_,
    fun _ _ m at_ hm => absurd hm (hsame m at_), fun _ _ h => (by cases h), fun m at_ hm => absurd hm (hsame m at_),
    fun _ => .inr ⟨hbarrier, fun member hmember => hvalid.engaged hmember⟩⟩
  · rw [hnew] at hx
    cases hx
  · obtain ⟨owner, howner, _⟩ := hvalid
    exact ⟨owner, howner⟩

/-- A creation meets the discipline. -/
theorem ok_createCronJob {lib : CronLibrary} {localeCompare : String → String → Int} (input : CreateCronJob) (s : CronStore) :
    Ok (CronCall.createCronJob input).Good (fun _ _ _ _ => True) (createCronJob lib localeCompare input) [] id s := by
  simp only [createCronJob, databaseNow, Script.meets_bind, Script.meets_read, Script.meets_onOk_ok, Script.meets_check]
  intro t₀ _
  cases schedulable lib input.schedule input.timezone (id t₀).clock with
  | error e => exact trivial
  | ok scheduled =>
    simp only [Script.meets_onOk_ok, Script.meets_transaction, Script.meets_bind]
    refine ok_lockCreateRoute (fun held ownerMemberId t ht hbarrier haccess => ?_) fun _ _ _ _ => trivial
    simp only [Script.meets_onOk_ok, Script.meets_bind]
    refine ok_revalidateOwnerChatAgent ht.inv (fun snapshot t₁ ht₁ hvalid howner => ?_) fun _ _ _ => trivial
    simp only [Script.meets_onOk_ok, Script.meets_bind]
    refine ok_resolveIdenticalCreateConflict fun identicalPre t₂ ht₂ => ?_
    cases identicalPre with
    | some job => exact ends_ok (committable_id (good_refl _) _ _) fun _ _ => trivial
    | none =>
      simp only [Script.meets_onOk_ok, Script.meets_bind, Script.meets_read]
      intro t₃ ht₃
      split
      · exact trivial
      simp only [insertJob, Script.meets_bind, Script.meets_exec, Script.meets_onOk_ok]
      intro t₄ ht₄
      cases hinsertion : insertionOf input (id t₄) with
      | idTaken => exact trivial
      | nameTaken =>
        simp only [Script.meets_bind]
        refine ok_resolveIdenticalCreateConflict fun identical t₅ ht₅ => ?_
        cases identical with
        | some job => exact ends_ok (committable_id (good_refl _) _ _) fun _ _ => trivial
        | none => exact trivial
      | inserted =>
        refine ok_projectCronJob ht₄.inv fun r t₅ ht₅ => ends_ok (fun u hu => ?_) fun _ _ => trivial
        have hsub : held ⊆ held ++ [.job input.id, .jobName input.controlChatId input.agentId input.name] :=
          List.subset_append_left _ _
        have hlater : Later held t u := (((ht₁.trans ht₂).trans ht₃).trans ht₄).trans ((ht₅.trans hu).subset hsub)
        have hnew : u.identities.lookup input.id = none := by
          have hsame : u.identities.lookup input.id = t₄.identities.lookup input.id :=
            ((ht₅.trans hu).protects (.job input.id) (by simp)).identity
          rw [hsame]
          unfold insertionOf at hinsertion
          split at hinsertion
          · cases hinsertion
          · next hfree => simpa using hfree
        obtain rfl : snapshot.ownerMemberId = ownerMemberId := howner
        have hallowed : JobAllowed (held ++ [.job input.id, .jobName input.controlChatId input.agentId input.name]) none input.id
            (newJob input snapshot.ownerMemberId scheduled) u (addJob input.id (newJob input snapshot.ownerMemberId scheduled) u) :=
          jobAllowed_create hu.inv (by simp) hnew (hsub hbarrier)
            (hvalid.later hbarrier (((ht₂.trans ht₃).trans ht₄).trans ((ht₅.trans hu).subset hsub)))
        have hwrite := jobWrite_addJob input.id (newJob input snapshot.ownerMemberId scheduled) u
        refine ⟨guarantees_of_jobWrite hu.inv hwrite hallowed, revised_of_jobWrite hwrite fun row hrow => ?_,
          .inr ⟨fun m h hm hh => haccess m h hm hh u hlater, hnew, fun k hk => AList.lookup_insert_ne hk⟩⟩
        have hknown := hu.inv.identity _ row hrow
        rw [hnew] at hknown
        cases hknown

/-! ## Engagement -/

/-- A member with a human agent is the one that is found by it. -/
theorem memberOfAgent_eq (hs : ScheduleOk s) {memberId : String} {member : CronMember}
    (hmember : s.members.lookup memberId = some member) : memberOfAgent member.agentId s = some memberId := by
  obtain ⟨found, hfound⟩ := Option.isSome_iff_exists.mp (memberOfAgent_isSome hmember)
  obtain ⟨e, he, rfl⟩ := Option.map_eq_some_iff.mp hfound
  have hagent : e.2.agentId = member.agentId := by simpa using List.find?_some he
  have hrow : s.members.lookup e.1 = some e.2 := AList.mem_lookup_iff.mpr (List.mem_of_find?_eq_some he)
  rw [hfound, hs.humans _ _ _ _ hrow hmember hagent]

/-- The deletion of a chat may be committed, when the jobs it pauses are the active ones of the caller. -/
theorem committable_chatDeleted {chatId callerMemberId : String} {status : EngagementStatus} {member : CronMember} {ids : List String}
    (hmember : s.members.lookup callerMemberId = some member) (hids : ids.Nodup) (hbarrier : .ownerChat chatId callerMemberId ∈ held)
    (hlocked : ∀ k ∈ ids, .job k ∈ held) (hactive : ∀ k, k ∈ ids ↔ ActiveFor chatId callerMemberId k s) :
    Committable (CronCall.postEngagement chatId callerMemberId status).Good held (chatDeleted chatId member.agentId ids) s := by
  intro u hu
  obtain ⟨member', hmember', hagent⟩ := hu.always.members _ member hmember
  have hkept : ∀ k ∈ ids, ∃ row, u.jobs.lookup k = some row ∧ row.controlChatId = chatId ∧ row.ownerMemberId = callerMemberId := by
    intro k hk
    obtain ⟨row, hrow, _, hchat, howner⟩ := (hactive k).mp hk
    exact ⟨row, (hu.protects _ (hlocked k hk)).row.trans hrow, hchat, howner⟩
  have hguarantees := guarantees_chatDeleted hu.inv hmember' hids hbarrier hlocked
    fun k hk => (hactive k).mpr ((hu.protects _ hbarrier).active k hk)
  rw [hagent] at hguarantees
  refine ⟨hguarantees, fun k row row' hrow hrow' => ?_, fun k => ?_⟩
  · rcases pauseAll_cases hids hrow' with ⟨_, before, hbefore, rfl⟩ | ⟨_, hbefore⟩
    · obtain rfl := Option.some.inj (hbefore.symm.trans hrow)
      exact ⟨rfl, .inl rfl⟩
    · obtain rfl := Option.some.inj (hbefore.symm.trans hrow)
      exact ⟨rfl, .inr ⟨rfl, rfl⟩⟩
  · by_cases hk : k ∈ ids
    · exact .inr (hkept k hk)
    · left
      show (pauseAll .ownerChatDeleted ids u).jobs.lookup k = u.jobs.lookup k
      rw [lookup_pauseAll _ hids, if_neg hk]

/-- The active jobs of an owner in a chat are paused under their locks and the barrier. -/
theorem ok_pauseActiveJobs {chatId ownerMemberId : String}
    {post : Except CronError Nat → List CronLock → (CronStore → CronStore) → CronStore → Prop}
    (hok : ∀ held' ids count t, Later held s t → ids.Nodup → .ownerChat chatId ownerMemberId ∈ held' → (∀ k ∈ ids, .job k ∈ held') →
      (∀ k, k ∈ ids ↔ ActiveFor chatId ownerMemberId k t) → post (.ok count) held' (pauseAll .ownerChatDeleted ids) t) :
    Ok good post (pauseActiveJobsForOwnerChatDelete chatId ownerMemberId) held id s := by
  simp only [pauseActiveJobsForOwnerChatDelete, Script.meets_bind]
  refine ok_lockOwnerChatCronBarrier fun t₁ ht₁ => ?_
  simp only [Script.meets_onOk_ok, Script.meets_bind, Script.meets_lockAndRead]
  intro t₂ ht₂
  have h₂ : Later held s t₂ := ht₁.trans (ht₂.subset (List.subset_append_left _ _))
  split
  · next hempty =>
    have hnil : activeJobs chatId ownerMemberId t₂ = [] := List.isEmpty_iff.mp hempty
    refine hok _ [] 0 t₂ h₂ List.nodup_nil (by simp) (fun _ h => absurd h List.not_mem_nil) fun k => ?_
    rw [← mem_activeJobs, hnil]
  · simp only [Script.meets_bind, Script.meets_exec, Script.meets_onOk_ok, Script.meets_pure]
    intro t₃ ht₃
    refine hok _ (activeJobs chatId ownerMemberId t₃) _ t₃ ?_ (nodup_activeJobs _ _ _) (by simp) (fun k hk => ?_) fun k =>
      mem_activeJobs
    · exact h₂.trans (ht₃.subset (List.Subset.trans (List.subset_append_left _ _) (List.subset_append_left _ _)))
    · exact List.mem_append_right _ (List.mem_map_of_mem hk)

/-- A route that sets an engagement meets the discipline. -/
theorem ok_postEngagement (chatId callerMemberId : String) (status : EngagementStatus) (s : CronStore) :
    Ok (CronCall.postEngagement chatId callerMemberId status).Good (fun _ _ _ _ => True)
      (postEngagement chatId callerMemberId status) [] id s := by
  simp only [postEngagement, Script.meets_bind, Script.meets_read, Script.meets_onOk_ok]
  intro t₀ ht₀
  cases hcaller : (id t₀).members.lookup callerMemberId with
  | none => exact trivial
  | some caller =>
    simp only [setChatEngagement]
    split
    · next hstatus =>
      subst hstatus
      simp only [Script.meets_transaction, Script.meets_bind, Script.meets_read, Script.meets_onOk_ok]
      intro t₁ ht₁
      obtain ⟨caller', hcaller', hagent⟩ := ht₁.always.members _ caller hcaller
      have hfound : memberOfAgent caller.agentId (id t₁) = some callerMemberId := by
        rw [← hagent]
        exact memberOfAgent_eq ht₁.inv hcaller'
      simp only [hfound, Script.meets_bind]
      refine ok_pauseActiveJobs fun held ids count t₂ ht₂ hids hbarrier hlocked hactive => ?_
      simp only [Script.meets_onOk_ok, upsertEngagement, Script.meets_exec]
      intro t₃ ht₃
      obtain ⟨caller₂, hcaller₂, hagent₂⟩ := ht₂.always.members _ caller' hcaller'
      have hcommit : Committable (CronCall.postEngagement chatId callerMemberId .deleted).Good held
          (chatDeleted chatId caller.agentId ids) t₂ := by
        rw [← hagent, ← hagent₂]
        exact committable_chatDeleted hcaller₂ hids hbarrier hlocked hactive
      refine ends_ok (fun u hu => ?_) fun _ _ => trivial
      obtain ⟨hguarantees, hgood⟩ := hcommit u (ht₃.trans (hu.subset (List.subset_append_left _ _)))
      exact ⟨hguarantees.mono (List.subset_append_left _ _), hgood⟩
    · next hstatus =>
      simp only [Script.meets_transaction, upsertEngagement, Script.meets_exec]
      intro t₁ _
      exact ends_ok (fun u hu => ⟨guarantees_setEngagement hu.inv hstatus, revised_of_same fun _ => rfl, fun _ => .inl rfl⟩)
        fun _ _ => trivial

/-! ## The writes of other services -/

/-- Other services do not write the jobs. -/
theorem jobs_write (write : CronWrite) (s : CronStore) : (write.apply s).jobs = s.jobs := by
  cases write with
  | tick | agent | archive | routes => rfl
  | join | memberStatus | inbox | message =>
    simp only [CronWrite.apply]
    split <;> rfl
  | membership chatId agentId mode => cases mode <;> rfl

/-- A write of another service meets the discipline. -/
theorem ok_writeOther (write : CronWrite) (s : CronStore) :
    Ok (CronCall.writeOther write).Good (fun _ _ _ _ => True) (writeOther write) [] id s := by
  simp only [writeOther, Script.meets_transaction, Script.meets_exec]
  intro t _
  exact ends_ok (fun u hu => ⟨guarantees_write hu.inv write, revised_of_same fun k => by rw [id_eq, jobs_write], jobs_write write u⟩)
    fun _ _ => trivial

/-! ## Sweeps -/

/-- What a sweep knows of the job it has claimed. -/
structure Claimed (key : String) (job : CronJobRow) (scheduledFor : Int) (held : List CronLock) (s : CronStore) : Prop where
  row : s.jobs.lookup key = some job
  locked : .job key ∈ held
  active : job.state = .active
  due : job.nextRunAt = some scheduledFor
  past : scheduledFor ≤ s.clock

variable {key : String} {job row' : CronJobRow} {scheduledFor : Int}

/-- A claim holds under more locks. -/
theorem Claimed.more (h : Claimed key job scheduledFor held s) (hsub : held ⊆ held') : Claimed key job scheduledFor held' s :=
  ⟨h.row, hsub h.locked, h.active, h.due, h.past⟩

/-- What is known of a claimed job stays known. -/
theorem Claimed.later (h : Claimed key job scheduledFor held s) (ht : Later held s t) : Claimed key job scheduledFor held t :=
  ⟨(ht.protects _ h.locked).row.trans h.row, h.locked, h.active, h.due, h.past.trans ht.always.clock⟩

/-- A claim takes the lock of a job that is due, or there is none. -/
theorem ok_claimDue {post : Except CronError (Option (String × CronJobRow × Int)) → List CronLock → (CronStore → CronStore) →
    CronStore → Prop} {ids : List String} (hs : ScheduleOk s)
    (hsome : ∀ key job scheduledFor held' t, Later held s t → Claimed key job scheduledFor held' t →
      post (.ok (some (key, job, scheduledFor))) held' id t)
    (hnone : ∀ held' t, Later held s t → post (.ok none) held' id t) : Ok good post (claimDue ids) held id s := by
  induction ids generalizing held s with
  | nil => exact hnone held s (.refl hs)
  | cons key ids ih =>
    simp only [claimDue, Script.meets_bind, Script.meets_choose, Script.meets_onOk_ok]
    intro skipLocked
    cases skipLocked with
    | true => exact ih hs hsome hnone
    | false =>
      simp only [Bool.false_eq_true, if_false, Script.meets_bind, Script.meets_lockAndRead, Script.meets_onOk_ok]
      intro t ht
      have hrest : ∀ locks, Ok good post (claimDue ids) (held ++ locks) id t := fun locks =>
        ih ht.inv (fun k j at_ held' u hu => hsome k j at_ held' u (ht.trans (hu.subset (List.subset_append_left _ _))))
          fun held' u hu => hnone held' u (ht.trans (hu.subset (List.subset_append_left _ _)))
      cases hrow : ((id t).jobs.lookup key).filter (isDue (id t).clock) with
      | none => exact hrest _
      | some job =>
        obtain ⟨hfound, hdue⟩ := Option.filter_eq_some_iff.mp hrow
        cases hnext : job.nextRunAt with
        | none => simp [isDue, hnext] at hdue
        | some scheduledFor =>
          simp only [isDue, hnext, Bool.and_eq_true, decide_eq_true_eq, Option.filter_some] at hdue
          obtain ⟨hactive, hpast⟩ := hdue
          simp only [Option.bind_some, hnext, Option.map_some, Script.meets_pure]
          refine hsome key job scheduledFor _ t ht ⟨hfound, by simp, hactive, hnext, ?_⟩
          by_contra hfuture
          simp [hfuture] at hpast

/-- A sweep that writes the job it has claimed advances it. -/
theorem good_claimed {staleSeconds : Int} {sends : Nat → TriggerSend} {fired : Option (String × Int)} {u : CronStore}
    (hclaimed : Claimed key job scheduledFor held s) (hw : JobWrite fired key row' s u)
    (hidentity : row'.toCronJobIdentity = job.toCronJobIdentity)
    (hrevision : row'.revision = job.revision + 1 ∨ row'.revision = job.revision ∧ row'.configuration = job.configuration)
    (hnext : ∀ next, row'.nextRunAt = some next → scheduledFor < next) : (CronCall.sweepCronJobs staleSeconds sends).Good s u := by
  refine ⟨revised_of_jobWrite hw fun row hrow => ?_, fun k => ?_⟩
  · obtain rfl := Option.some.inj (hclaimed.row.symm.trans hrow)
    exact ⟨hidentity, hrevision⟩
  · by_cases hk : k = key
    · subst hk
      exact .inr ⟨job, row', scheduledFor, hclaimed.row, by rw [hw.jobs k, if_pos rfl], hclaimed.due, hclaimed.past, hnext⟩
    · exact .inl (by rw [hw.jobs k, if_neg hk])

/-- A sweep may commit the pause of the job it has claimed. -/
theorem ok_pauseClaimed {staleSeconds : Int} {sends : Nat → TriggerSend} {reason : CronJobPauseReason}
    {post : Except CronError Unit → List CronLock → (CronStore → CronStore) → CronStore → Prop}
    (hclaimed : Claimed key job scheduledFor held s)
    (hok : ∀ held' own t, Committable (CronCall.sweepCronJobs staleSeconds sends).Good held' own t → post (.ok ()) held' own t) :
    Ok good post (pauseClaimed key reason) held id s := by
  simp only [pauseClaimed, updateJob, Script.meets_exec]
  intro t ht
  refine hok _ _ t fun u hu => ?_
  have hclaimedᵤ := ((hclaimed.later ht).more (List.subset_append_left _ [.job key])).later hu
  have hwrite : JobWrite none key (autoPause reason job) u (setJob key (autoPause reason job) u) :=
    jobWrite_setJob hu.inv hclaimedᵤ.row rfl
  simp only [id_eq, modifyJob_eq hclaimedᵤ.row]
  refine ⟨guarantees_of_jobWrite hu.inv hwrite ⟨hclaimedᵤ.locked, fun _ _ h => (by cases h), fun x hx => ?_,
    jobShape_autoPause reason job,
    hu.inv.owner key job hclaimedᵤ.row, fun _ h => (by cases h), fun _ _ h => (by cases h), fun m at_ hm => ?_, fun h =>
      (by cases h)⟩,
    good_claimed hclaimedᵤ hwrite rfl (.inl rfl) fun _ h => (by cases h)⟩
  · exact Option.some.inj (hx.symm.trans (hu.inv.identity key job hclaimedᵤ.row))
  · exact hu.inv.outstanding key job hclaimedᵤ.row m at_
      ((triggerOf_congr (s := u) (t := setJob key (autoPause reason job) u) rfl).mp hm)

/-- The shape of a claimed job with another next run. -/
theorem Claimed.jobShape (hclaimed : Claimed key job scheduledFor held s) (hs : ScheduleOk s) {nextRunAt : Int}
    {last : Option String} : JobShape { job with nextRunAt := some nextRunAt, lastTriggerMessageId := last } := by
  have hshape := hs.shape key job hclaimed.row
  exact ⟨⟨fun _ => rfl, fun _ => hclaimed.active⟩, hshape.stateReason, hshape.revision⟩

/-- The job a sweep goes on with: its next run is later than the clock was once it had been claimed. -/
structure GoingOn (key : String) (job : CronJobRow) (scheduledFor nextRunAt : Int) (held : List CronLock) (s : CronStore) : Prop
    extends Claimed key job scheduledFor held s where
  later : scheduledFor < nextRunAt
  triggers : ∀ m at_, TriggerOf key m at_ s → at_ < nextRunAt

/-- What is known of a job that goes on stays known. -/
theorem GoingOn.at {nextRunAt : Int} (h : GoingOn key job scheduledFor nextRunAt held s) (ht : Later held s t) :
    GoingOn key job scheduledFor nextRunAt held t where
  toClaimed := h.toClaimed.later ht
  later := h.later
  triggers m at_ hm := h.triggers m at_ (triggers_later h.locked ht hm)

/-- It holds under more locks. -/
theorem GoingOn.more {nextRunAt : Int} (h : GoingOn key job scheduledFor nextRunAt held s) (hsub : held ⊆ held') :
    GoingOn key job scheduledFor nextRunAt held' s :=
  ⟨h.toClaimed.more hsub, h.later, h.triggers⟩

/-- A sweep may commit the next run of the job it has claimed. -/
theorem ok_skipClaimed {staleSeconds : Int} {sends : Nat → TriggerSend} {nextRunAt : Int}
    {post : Except CronError Unit → List CronLock → (CronStore → CronStore) → CronStore → Prop}
    (hgoing : GoingOn key job scheduledFor nextRunAt held s)
    (hok : ∀ held' own t, Committable (CronCall.sweepCronJobs staleSeconds sends).Good held' own t → post (.ok ()) held' own t) :
    Ok good post (skipClaimed key nextRunAt) held id s := by
  simp only [skipClaimed, updateJob, Script.meets_exec]
  intro t ht
  refine hok _ _ t fun u hu => ?_
  have hgoingᵤ := ((hgoing.at ht).more (List.subset_append_left _ [.job key])).at hu
  have hrow := hgoingᵤ.row
  have hwrite :
      JobWrite none key { job with nextRunAt := some nextRunAt } u (setJob key { job with nextRunAt := some nextRunAt } u) :=
    jobWrite_setJob hu.inv hrow rfl
  have hsame : ∀ m at_, TriggerOf key m at_ (setJob key { job with nextRunAt := some nextRunAt } u) → TriggerOf key m at_ u :=
    fun m at_ => (triggerOf_congr (s := u) rfl).mp
  simp only [id_eq, modifyJob_eq hrow]
  refine ⟨guarantees_of_jobWrite hu.inv hwrite ⟨hgoingᵤ.locked, fun _ _ h => (by cases h), fun x hx => ?_, hgoingᵤ.jobShape hu.inv,
    hu.inv.owner key job hrow, fun next hnext m at_ hm => ?_, fun _ _ h => (by cases h),
    fun m at_ hm => hu.inv.outstanding key job hrow m at_ (hsame m at_ hm), fun h => .inl ⟨job, hrow, h, rfl, rfl⟩⟩,
    good_claimed hgoingᵤ.toClaimed hwrite rfl (.inr ⟨rfl, rfl⟩) fun next hnext => ?_⟩
  · exact Option.some.inj (hx.symm.trans (hu.inv.identity key job hrow))
  · obtain rfl := Option.some.inj hnext
    exact hgoingᵤ.triggers m at_ (hsame m at_ hm)
  · obtain rfl := Option.some.inj hnext
    exact hgoingᵤ.later

/-- Whether an agent can be reached is only read. -/
theorem ok_readCurrentDispatchability {agentId : String} {now staleSeconds : Int}
    {post : Except CronError (Option CronDispatchSkip) → List CronLock → (CronStore → CronStore) → CronStore → Prop}
    (hpost : ∀ r t, Later held s t → post (.ok r) held own t) :
    Ok good post (readCurrentDispatchability agentId now staleSeconds) held own s := by
  simp only [readCurrentDispatchability, Script.meets_bind, Script.meets_read, Script.meets_onOk_ok]
  intro t₁ ht₁
  split
  · exact hpost _ t₁ ht₁
  simp only [Script.meets_bind, Script.meets_read, Script.meets_onOk_ok]
  intro t₂ ht₂
  have h₂ := ht₁.trans ht₂
  split
  · exact hpost _ t₂ h₂
  split
  · exact hpost _ t₂ h₂
  simp only [Script.meets_bind, Script.meets_read, Script.meets_onOk_ok]
  intro t₃ ht₃
  have h₃ := h₂.trans ht₃
  split
  · exact hpost _ t₃ h₃
  split
  · exact hpost _ t₃ h₃
  split
  · exact hpost _ t₃ h₃
  split
  · exact hpost _ t₃ h₃
  simp only [Script.meets_bind, Script.meets_read, Script.meets_onOk_ok]
  intro t₄ ht₄
  split
  · exact hpost _ t₄ (h₃.trans ht₄)
  · split <;> exact hpost _ t₄ (h₃.trans ht₄)

/-- The store after a trigger has been sent. -/
def triggered (send : TriggerSend) (snapshot : AuthorizationSnapshot) (message : CronMessage) (s : CronStore) : CronStore :=
  addEntry (snapshot.agentInboxId, send.messageId, message.chatId) ⟨.pending, true⟩ (addMessage send.messageId message s)

/-- A trigger that is sent is a new message, whose lock is held. -/
theorem ok_sendTrigger {send : TriggerSend} {snapshot : AuthorizationSnapshot} {message : CronMessage}
    {post : Except CronError Unit → List CronLock → (CronStore → CronStore) → CronStore → Prop}
    (hok : ∀ t, Later held s t → t.messages.lookup send.messageId = none →
      post (.ok ()) (held ++ [.message send.messageId]) (triggered send snapshot message) t)
    (herror : ∀ e held' own t, post (.error e) held' own t) : Ok good post (sendTrigger send snapshot message) held id s := by
  simp only [sendTrigger, Script.meets_bind, Script.meets_mayFail, Script.meets_onOk_ok, Script.meets_onOk_error, Script.meets_exec,
    Script.meets_check]
  refine ⟨fun t₁ ht₁ => ?_, herror _ _ _ _⟩
  cases hfound : (id t₁).messages.lookup send.messageId with
  | some _ => exact herror _ _ _ _
  | none =>
    simp only [Option.isSome_none, Bool.false_eq_true, if_false, Script.meets_onOk_ok]
    cases hincluded : send.included with
    | false =>
      intro side
      cases side <;> exact herror _ _ _ _
    | true =>
      simp only [if_true, Script.meets_exec, List.append_nil, Script.meets_onOk_ok, Script.meets_bind, Script.meets_mayFail,
        Script.meets_onOk_error, Script.meets_check]
      intro t₂ ht₂
      refine ⟨hok t₂ (ht₁.trans (ht₂.subset (List.subset_append_left _ _))) ?_, herror _ _ _ _⟩
      exact Eq.trans (ht₂.protects (.message send.messageId) (by simp)) hfound

/-- A sweep may commit the trigger of the job it has claimed, when the last one is acknowledged. -/
theorem ok_acceptClaimed {lib : CronLibrary} {send : TriggerSend} {snapshot : AuthorizationSnapshot} {staleSeconds : Int}
    {sends : Nat → TriggerSend} {nextRunAt : Int}
    {post : Except CronError Unit → List CronLock → (CronStore → CronStore) → CronStore → Prop}
    (hgoing : GoingOn key job scheduledFor nextRunAt held s) (hclear : Clear job s)
    (hok : ∀ held' own t, Committable (CronCall.sweepCronJobs staleSeconds sends).Good held' own t → post (.ok ()) held' own t)
    (herror : ∀ e held' own t, post (.error e) held' own t) :
    Ok good post (acceptClaimed lib send snapshot key job scheduledFor nextRunAt) held id s := by
  simp only [acceptClaimed, Script.meets_bind]
  refine ok_sendTrigger (fun t ht hfree => ?_) herror
  simp only [Script.meets_onOk_ok, updateJob, Script.meets_exec]
  intro t' ht'
  refine hok _ _ t' fun u hu => ?_
  have hsub : held ⊆ held ++ [.message send.messageId] := List.subset_append_left _ _
  have hlater : Later (held ++ [.message send.messageId]) t u := ht'.trans (hu.subset (List.subset_append_left _ _))
  have hgoingᵤ := (((hgoing.at ht).at (hlater.subset hsub)).more hsub).more (List.subset_append_left _ [.job key])
  have hclearᵤ : Clear job u := (hclear.later ht).later hlater
  have hfreeᵤ : u.messages.lookup send.messageId = none := (hlater.protects (.message send.messageId) (by simp)).trans hfree
  have hrow := hgoingᵤ.row
  let message : CronMessage :=
    { chatId := job.controlChatId
      content := buildTriggerContent lib snapshot job scheduledFor (buildCronRunKey lib key scheduledFor)
      cronTrigger := some ⟨key, scheduledFor, buildCronRunKey lib key scheduledFor⟩ }
  let after : CronJobRow := { job with nextRunAt := some nextRunAt, lastTriggerMessageId := some send.messageId }
  have hwrite : JobWrite (some (send.messageId, scheduledFor)) key after u (setJob key after (triggered send snapshot message u)) :=
    jobWrite_trigger hu.inv hrow (rfl : after.toCronJobIdentity = job.toCronJobIdentity) hfreeᵤ
      (rfl : message.cronTrigger = some ⟨key, scheduledFor, buildCronRunKey lib key scheduledFor⟩) rfl
  have hsame : (triggered send snapshot message u).jobs.lookup key = some job := by
    unfold triggered addEntry
    split <;> exact hrow
  show cronDiscipline.Guarantees CronLock.conflicts _ u (modifyJob key _ (triggered send snapshot message u)) ∧ _
  rw [modifyJob_eq hsame]
  refine ⟨guarantees_of_jobWrite hu.inv hwrite ⟨hgoingᵤ.locked, fun m at_ h => ?_, fun x hx => ?_, hgoingᵤ.jobShape hu.inv,
    hu.inv.owner key job hrow, fun next hnext m at_ hm => ?_, fun m at_ h => ?_, fun m at_ hm => ?_, fun h =>
      .inl ⟨job, hrow, h, rfl, rfl⟩⟩,
    good_claimed hgoingᵤ.toClaimed hwrite rfl (.inr ⟨rfl, rfl⟩) fun next hnext => ?_⟩
  · obtain ⟨rfl, rfl⟩ := Prod.mk.inj (Option.some.inj h)
    simp
  · exact Option.some.inj (hx.symm.trans (hu.inv.identity key job hrow))
  · obtain rfl := Option.some.inj hnext
    rcases (hwrite.triggers key m at_).mp hm with hm | ⟨_, hfired⟩
    · exact hgoingᵤ.triggers m at_ hm
    · obtain ⟨rfl, rfl⟩ := Prod.mk.inj (Option.some.inj hfired)
      exact hgoingᵤ.later
  · obtain ⟨rfl, rfl⟩ := Prod.mk.inj (Option.some.inj h)
    exact ⟨hgoingᵤ.past, fun m' hm' => lt_irrefl _ (hu.inv.before key job _ hrow hgoingᵤ.due m' _ hm')⟩
  · rcases (hwrite.triggers key m at_).mp hm with hm | ⟨_, hfired⟩
    · -- An earlier trigger is the last one of the claimed row, which is clear, or acknowledged already.
      right
      rcases hu.inv.outstanding key job hrow m at_ hm with hlast | ⟨inboxId, hacked⟩
      · obtain ⟨inboxId, hacked⟩ := hclearᵤ m hlast
        exact ⟨inboxId, hwrite.acked _ hacked⟩
      · exact ⟨inboxId, hwrite.acked _ hacked⟩
    · exact .inl (congrArg some (Prod.mk.inj (Option.some.inj hfired)).1)
  · obtain rfl := Option.some.inj hnext
    exact hgoingᵤ.later

/-- A sweep may commit what it does with a job it has validated. -/
theorem ok_dispatchClaimed {lib : CronLibrary} {send : TriggerSend} {snapshot : AuthorizationSnapshot} {stale now staleSeconds : Int}
    {sends : Nat → TriggerSend} {nextRunAt : Int}
    {post : Except CronError Unit → List CronLock → (CronStore → CronStore) → CronStore → Prop}
    (hs : ScheduleOk s) (hgoing : GoingOn key job scheduledFor nextRunAt held s)
    (hok : ∀ held' own t, Committable (CronCall.sweepCronJobs staleSeconds sends).Good held' own t → post (.ok ()) held' own t)
    (herror : ∀ e held' own t, post (.error e) held' own t) :
    Ok good post (dispatchClaimed lib stale send snapshot key job now scheduledFor nextRunAt) held id s := by
  simp only [dispatchClaimed, Script.meets_bind]
  refine ok_loadOutstanding hs fun r t ht hclear => ?_
  simp only [Script.meets_onOk_ok]
  split
  · exact ok_pauseClaimed (hgoing.at ht).toClaimed hok
  · exact ok_skipClaimed (hgoing.at ht) hok
  · exact ok_skipClaimed (hgoing.at ht) hok
  · simp only [Script.meets_bind]
    refine ok_readCurrentDispatchability fun route t' ht' => ?_
    simp only [Script.meets_onOk_ok]
    cases route with
    | some _ => exact ok_skipClaimed ((hgoing.at ht).at ht') hok
    | none => exact ok_acceptClaimed ((hgoing.at ht).at ht') ((hclear rfl).later ht') hok herror

/-- A sweep may commit what it does with a job it has claimed. -/
theorem ok_processClaimed {lib : CronLibrary} (hlib : GoesOn lib) {send : TriggerSend} {stale staleSeconds : Int}
    {sends : Nat → TriggerSend} {post : Except CronError Unit → List CronLock → (CronStore → CronStore) → CronStore → Prop}
    (hclaimed : Claimed key job scheduledFor held s)
    (hok : ∀ held' own t, Committable (CronCall.sweepCronJobs staleSeconds sends).Good held' own t → post (.ok ()) held' own t)
    (herror : ∀ e held' own t, post (.error e) held' own t) :
    Ok good post (processClaimed lib stale send key job scheduledFor) held id s := by
  simp only [processClaimed, databaseNow, Script.meets_bind, Script.meets_read, Script.meets_onOk_ok]
  intro t ht
  have hclaimedₜ := hclaimed.later ht
  split
  · exact ok_pauseClaimed hclaimedₜ hok
  · exact herror _ _ _ _
  · exact ok_pauseClaimed hclaimedₜ hok
  · next nextRunAt hfirst =>
    have hlt : t.clock < nextRunAt := CronScheduleAux.lt_of_firstOccurrence hlib hfirst
    have hgoing : GoingOn key job scheduledFor nextRunAt held t :=
      ⟨hclaimedₜ, hclaimedₜ.past.trans_lt hlt, fun m at_ hm => (ht.inv.past key m at_ hm).1.trans_lt hlt⟩
    simp only [Script.meets_bind]
    refine ok_revalidateOwnerChatAgent ht.inv (fun snapshot t₁ ht₁ _ _ => ?_) fun reason t₁ ht₁ => ?_
    · exact ok_dispatchClaimed ht₁.inv (hgoing.at ht₁) hok herror
    · exact ok_pauseClaimed (hclaimedₜ.later ht₁) hok

/-- A claim with what comes of it meets the discipline, and ends without a transaction. -/
theorem ok_claimAndProcessOne {lib : CronLibrary} (hlib : GoesOn lib) {send : TriggerSend} {stale staleSeconds : Int}
    {sends : Nat → TriggerSend} (s : CronStore) :
    Ok (CronCall.sweepCronJobs staleSeconds sends).Good (fun _ held own _ => held = [] ∧ own = id)
      (claimAndProcessOne lib stale send) [] id s := by
  simp only [claimAndProcessOne, Script.meets_transaction, Script.meets_bind, Script.meets_read, Script.meets_onOk_ok]
  intro t ht
  refine ok_claimDue ht.inv (fun key job scheduledFor held' t' ht' hclaimed => ?_) fun held' t' _ => ?_
  · simp only [Script.meets_onOk_ok, Script.meets_bind]
    refine ok_processClaimed hlib hclaimed
      (fun held own u (hcommit : Committable (CronCall.sweepCronJobs staleSeconds sends).Good held own u) => ?_) fun _ _ _ _ =>
        ⟨rfl, rfl⟩
    exact ends_ok hcommit fun _ _ => ⟨rfl, rfl⟩
  · exact ends_ok (committable_id (good_refl _) _ _) fun _ _ => ⟨rfl, rfl⟩

/-- A sweep meets the discipline. -/
theorem ok_sweepLoop {lib : CronLibrary} (hlib : GoesOn lib) {stale staleSeconds : Int}
    {sends sends' : Nat → TriggerSend} (left : Nat) (s : CronStore) :
    Ok (CronCall.sweepCronJobs staleSeconds sends).Good (fun _ _ _ _ => True) (sweepLoop lib stale sends' left) [] id s := by
  induction left generalizing s with
  | zero => exact trivial
  | succ left ih =>
    simp only [sweepLoop, Script.meets_bind, Script.meets_tryCatch]
    refine (ok_claimAndProcessOne hlib s).mono fun r held own t hidle => ?_
    obtain ⟨rfl, rfl⟩ := hidle
    cases r with
    | error e => exact trivial
    | ok processed =>
      simp only [Script.meets_onError_ok, Script.meets_onOk_ok]
      cases processed with
      | true => exact ih t
      | false => exact trivial

/-! ## Every call -/

/-- The script of every call meets the discipline, with good commits. -/
theorem ok_cronCall {lib : CronLibrary} (hlib : GoesOn lib) {localeCompare : String → String → Int} (call : CronCall)
    (s : CronStore) : Ok call.Good (fun _ _ _ _ => True) (call.script lib localeCompare) [] id s := by
  cases call with
  | createCronJob input =>
    refine Script.meets_bind.mpr ((ok_createCronJob input s).mono fun r _ _ _ _ => ?_)
    cases r <;> exact trivial
  | updateCronJob input body =>
    refine Script.meets_bind.mpr ((ok_updateCronJob hlib input body s).mono fun r _ _ _ _ => ?_)
    cases r <;> exact trivial
  | deleteCronJob input =>
    refine Script.meets_bind.mpr ((ok_deleteCronJob input s).mono fun r _ _ _ _ => ?_)
    cases r <;> exact trivial
  | postEngagement chatId callerMemberId status => exact ok_postEngagement chatId callerMemberId status s
  | sweepCronJobs staleSeconds sends => exact ok_sweepLoop hlib maxJobsPerSweep s
  | writeOther write => exact ok_writeOther write s

end ScheduledJobsAux

end FirstTree
