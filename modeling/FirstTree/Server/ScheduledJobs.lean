import FirstTree.Lib.Scripts
import FirstTree.Lib.LockedPrograms
import FirstTree.Server.ChatArchive
import FirstTree.Server.CronSchedule
import FirstTree.Server.Inbox

/-!
# Scheduled jobs

The transactions of `job.ts` and `scheduler.ts` as scripts: jobs are created, updated and deleted under the locks of their routes,
sweeps claim due jobs and write their trigger messages, and the deletion of a chat pauses its owner's jobs. What other services
write of the tables these read comes as statements of its own, and so does the clock of the database, which goes on.
-/

namespace FirstTree

open Transactions Scripts

/-- `CronChatMode`, with the mode that the schema reserves. -/
inductive CronChatMode where
  | reuseControlChat | newChatPerRun
  deriving DecidableEq

/-- `CronJobState`. -/
inductive CronJobState where
  | active | paused
  deriving DecidableEq

/-- `CronJobPauseReason`. -/
inductive CronJobPauseReason where
  | userPaused | ownerInactive | ownerNotSpeaker | agentManagerChanged | agentInactive | agentNotSpeaker | chatInvalid
  | invalidSchedule | inboxStateMissing | ownerChatDeleted | unsupportedChatMode
  deriving DecidableEq

/-- The text of a reason. -/
def CronJobPauseReason.text : CronJobPauseReason → String
  | .userPaused => "user_paused"
  | .ownerInactive => "owner_inactive"
  | .ownerNotSpeaker => "owner_not_speaker"
  | .agentManagerChanged => "agent_manager_changed"
  | .agentInactive => "agent_inactive"
  | .agentNotSpeaker => "agent_not_speaker"
  | .chatInvalid => "chat_invalid"
  | .invalidSchedule => "invalid_schedule"
  | .inboxStateMissing => "inbox_state_missing"
  | .ownerChatDeleted => "owner_chat_deleted"
  | .unsupportedChatMode => "unsupported_chat_mode"

/-- What a job keeps for good. -/
structure CronJobIdentity where
  ownerMemberId : String
  controlChatId : String
  agentId : String
  deriving DecidableEq

/-- A row of `cron_jobs`. -/
structure CronJobRow extends CronJobIdentity where
  name : String
  chatMode : CronChatMode
  cronExpression : String
  timezone : String
  prompt : String
  state : CronJobState
  stateReason : Option CronJobPauseReason
  revision : Nat
  nextRunAt : Option Int
  lastTriggerMessageId : Option String
  deriving DecidableEq

/-- `CronTriggerMetadata`. -/
structure CronTrigger where
  jobId : String
  scheduledFor : Int
  runKey : String
  deriving DecidableEq

/-- A row of `messages`. -/
structure CronMessage where
  chatId : String
  content : String
  cronTrigger : Option CronTrigger
  deriving DecidableEq

/-- A row of `inbox_entries`, found by its inbox, its message and its chat. -/
structure CronInboxEntry where
  status : InboxEntryStatus
  notify : Bool
  deriving DecidableEq

/-- The states of a membership. -/
inductive MemberStatus where
  | active | left | removed
  deriving DecidableEq

/-- A row of `members`, with its human agent. -/
structure CronMember where
  organizationId : String
  agentId : String
  status : MemberStatus
  deriving DecidableEq

/-- The states of an agent. -/
inductive CronAgentStatus where
  | active | suspended | deleted
  deriving DecidableEq

/-- A row of `agents`. -/
structure CronAgent where
  organizationId : String
  managerId : String
  inboxId : String
  name : Option String
  displayName : String
  status : CronAgentStatus
  clientId : Option String
  deriving DecidableEq

/-- The access of an agent to a chat. -/
inductive ChatAccessMode where
  | speaker | watcher
  deriving DecidableEq

/-- A row of `agent_presence`. -/
structure CronPresence where
  online : Bool
  clientId : Option String
  instanceId : Option String
  lastSeenAt : Int

/-- A row of `clients`. -/
structure CronClient where
  retiredAt : Option Int
  connected : Bool
  instanceId : Option String
  pausedReason : Option String
  lastSeenAt : Int

/-- The rows of which a sweep reads whether an agent can be reached, and the organizations of the chats. -/
structure CronRoutes where
  chats : Rows String String
  presence : Rows String CronPresence
  clients : Rows String CronClient
  instances : Rows String Int

/-- The committed rows, with the clock of the database, and the identifiers that have been generated for jobs. -/
structure CronStore where
  clock : Int
  jobs : Rows String CronJobRow
  identities : Rows String CronJobIdentity
  messages : Rows String CronMessage
  inbox : Rows (String × String × String) CronInboxEntry
  members : Rows String CronMember
  agents : Rows String CronAgent
  memberships : Rows (String × String) ChatAccessMode
  engagement : Rows (String × String) EngagementStatus
  routes : CronRoutes

/-- The advisory lock of an owner's jobs in a chat, the locks of rows, and the lock of a name in the unique index. -/
inductive CronLock where
  | ownerChat (controlChatId ownerMemberId : String)
  | job (id : String)
  | jobName (controlChatId agentId name : String)
  | message (id : String)
  | member (id : String)
  | agent (id : String)
  | speaker (chatId agentId : String)
  | engagement (chatId agentId : String)
  deriving DecidableEq

/-- Two transactions cannot hold one lock at once. -/
def CronLock.conflicts (a b : CronLock) : Bool := decide (a = b)

/-- A script on the scheduled jobs. -/
abbrev CronScript (α : Type) := Script CronStore CronLock CronError α

/-- `CreateCronJobRequest`, with its route, its caller and the identifier generated for the job. -/
structure CreateCronJob where
  id : String
  controlChatId : String
  agentId : String
  name : String
  schedule : String
  timezone : String
  prompt : String
  callerMemberId : Option String
  callerHumanAgentId : Option String

/-- `UpdateCronJobRequest`. -/
structure UpdateCronJobRequest where
  name : Option String
  schedule : Option String
  timezone : Option String
  prompt : Option String
  state : Option CronJobState

/-- What an update and a deletion say of the job and of their caller. -/
structure CronJobTarget where
  jobId : String
  expectedRevision : Nat
  agentScope : Option (String × String)
  ownerMemberId : Option String
  callerMemberId : Option String
  callerHumanAgentId : Option String

/-- `CronOutstanding`, none, or "missing". -/
inductive CronOutstanding where
  | none
  | missing
  | outstanding (messageId : String) (status : InboxEntryStatus)

/-- `CronJob`, as its row with the outstanding trigger. -/
structure CronJob where
  id : String
  row : CronJobRow
  outstanding : Option (String × InboxEntryStatus)

/-- `DeleteCronJobResponse`. -/
structure DeleteCronJobResponse where
  id : String
  acceptedWorkPreserved : Bool
  lastTriggerMessageId : Option String

/-- `AuthorizationSnapshot`. -/
structure AuthorizationSnapshot where
  ownerMemberId : String
  ownerHumanAgentId : String
  agentInboxId : String
  organizationId : String
  agentName : Option String
  agentDisplayName : String

/-- What the send of a trigger brings: the identifier generated for the message, and whether the agent is among its recipients. -/
structure TriggerSend where
  messageId : String
  included : Bool

namespace ScheduledJobs

open CronSchedule

/-- `CRON_DISPATCH_GRACE_MS`. -/
def cronDispatchGraceMs : Int := 30000

/-- `MAX_JOBS_PER_SWEEP`. -/
def maxJobsPerSweep : Nat := 100

variable (lib : CronLibrary) (localeCompare : String → String → Int)

/-! ## Reads -/

/-- `databaseNow`. -/
def databaseNow : CronScript Int := Script.read fun s => s.clock

/-- `loadOutstanding`. -/
def loadOutstanding (job : CronJobRow) : CronScript CronOutstanding :=
  match job.lastTriggerMessageId with
  | none => pure .none
  | some messageId => do
    let agent ← Script.read fun s => s.agents.lookup job.agentId
    match agent with
    | none => pure .missing
    | some agent => do
      let message ← Script.read fun s => s.messages.lookup messageId
      if (message.map fun m => m.chatId) ≠ some job.controlChatId then pure .missing
      else do
        let entry ← Script.read fun s => (s.inbox.lookup (agent.inboxId, messageId, job.controlChatId)).filter fun e => e.notify
        match entry with
        | none => pure .missing
        | some entry => if entry.status = .acked then pure .none else pure (.outstanding messageId entry.status)

/-- `projectCronJob`. -/
def projectCronJob (id : String) (job : CronJobRow) : CronScript CronJob := do
  let outstanding ← loadOutstanding job
  match outstanding with
  | .outstanding messageId status => pure ⟨id, job, some (messageId, status)⟩
  | _ => pure ⟨id, job, none⟩

/-- A speaker of a chat. -/
def isSpeaker (chatId agentId : String) (s : CronStore) : Bool :=
  decide (s.memberships.lookup (chatId, agentId) = some .speaker)

/-- `revalidateOwnerChatAgent`, with the reason where it fails. -/
def revalidateOwnerChatAgent (job : CronJobIdentity) (chatMode : CronChatMode) :
    CronScript (Except CronJobPauseReason AuthorizationSnapshot) := do
  if chatMode ≠ .reuseControlChat then pure (.error .unsupportedChatMode)
  else do
    let chat ← Script.read fun s => s.routes.chats.lookup job.controlChatId
    match chat with
    | none => pure (.error .chatInvalid)
    | some organizationId => do
      let owner ← Script.read fun s => s.members.lookup job.ownerMemberId
      match owner.filter fun m => decide (m.status = .active ∧ m.organizationId = organizationId) with
      | none => pure (.error .ownerInactive)
      | some owner => do
        let agent ← Script.read fun s => s.agents.lookup job.agentId
        match agent.filter fun a => decide (a.status = .active ∧ a.organizationId = organizationId) with
        | none => pure (.error .agentInactive)
        | some agent =>
          if agent.managerId ≠ job.ownerMemberId then pure (.error .agentManagerChanged)
          else do
            let ownerSpeaks ← Script.read (isSpeaker job.controlChatId owner.agentId)
            if !ownerSpeaks then pure (.error .ownerNotSpeaker)
            else do
              let agentSpeaks ← Script.read (isSpeaker job.controlChatId job.agentId)
              if !agentSpeaks then pure (.error .agentNotSpeaker)
              else do
                let engagement ← Script.read fun s => s.engagement.lookup (job.controlChatId, owner.agentId)
                if engagement = some .deleted then pure (.error .ownerChatDeleted)
                else pure (.ok
                  { ownerMemberId := job.ownerMemberId, ownerHumanAgentId := owner.agentId, agentInboxId := agent.inboxId
                    organizationId := organizationId, agentName := agent.name, agentDisplayName := agent.displayName })

/-! ## Writes of one job -/

/-- The store with the row of a job. -/
def setJob (id : String) (row : CronJobRow) (s : CronStore) : CronStore := { s with jobs := s.jobs.insert id row }

/-- A change of the row of a job. -/
def modifyJob (id : String) (change : CronJobRow → CronJobRow) (s : CronStore) : CronStore :=
  match s.jobs.lookup id with
  | some row => setJob id (change row) s
  | none => s

/-- An update of the row of a job. -/
def updateJob (id : String) (change : CronJobRow → CronJobRow) : CronScript Unit :=
  Script.exec (fun _ => [.job id]) (fun _ store => modifyJob id change store) fun _ => ()

/-- A job is paused by the server. -/
def autoPause (reason : CronJobPauseReason) (row : CronJobRow) : CronJobRow :=
  { row with state := .paused, stateReason := some reason, nextRunAt := none, revision := row.revision + 1 }

/-- A job of an agent in a chat has the name. -/
def jobNamed (controlChatId agentId name : String) (s : CronStore) : Option (String × CronJobRow) :=
  (s.jobs.entries.find? fun e =>
    decide (e.2.controlChatId = controlChatId ∧ e.2.agentId = agentId ∧ e.2.name = name)).map fun e => (e.1, e.2)

/-! ## Locks and access -/

/-- `lockOwnerChatCronBarrier`. Pairs whose hashes are the same have one lock, which orders them more than this does. -/
def lockOwnerChatCronBarrier (controlChatId ownerMemberId : String) : CronScript Unit :=
  Script.lockAndRead (fun _ => [.ownerChat controlChatId ownerMemberId]) fun _ => ()

/-- `CronJobAppError` with the code of what is forbidden. -/
def forbidden (message : String) : CronError := .app 403 "CRON_JOB_FORBIDDEN" message

/-- The lock of the row of an active member. -/
def activeMember (id : String) (s : CronStore) : Option CronMember :=
  (s.members.lookup id).filter fun m => decide (m.status = .active)

/-- The two agents that are to be speakers, in the order their rows are locked. -/
def speakerOrder (a b : String) : List String := if localeCompare a b ≤ 0 then [a, b] else [b, a]

/-- The lock of the row of one speaker. -/
def lockSpeaker (chatId callerHumanAgentId agentId : String) : CronScript Unit := do
  let speaks ← Script.lockAndRead (fun s => if isSpeaker chatId agentId s then [.speaker chatId agentId] else [])
      (isSpeaker chatId agentId)
  Script.check (if speaks then .ok ()
    else .error (forbidden (if agentId = callerHumanAgentId then "Managing human must be a speaker in this chat"
      else "Agent must be a speaker in this chat")))

/-- `assertCronAgentRouteAccess`. -/
def assertCronAgentRouteAccess (chatId agentId callerMemberId callerHumanAgentId : String) : CronScript Unit := do
  let member ← Script.lockAndRead (fun s => if (activeMember callerMemberId s).isSome then [.member callerMemberId] else [])
    (activeMember callerMemberId)
  Script.check (if member.isSome then .ok ()
    else .error (forbidden "Only the managing human may manage scheduled jobs for this agent"))
  let agent ← Script.lockAndRead (fun s => if (s.agents.lookup agentId).isSome then [.agent agentId] else []) fun s =>
      s.agents.lookup agentId
  Script.check (if (agent.filter fun a => decide (a.status = .active ∧ a.managerId = callerMemberId)).isSome then .ok ()
    else .error (forbidden "Only the managing human may manage scheduled jobs for this agent"))
  Script.forEach (lockSpeaker chatId callerHumanAgentId) (speakerOrder localeCompare callerHumanAgentId agentId)

/-- `assertCronOwnerEngagementAllowed`. -/
def assertCronOwnerEngagementAllowed (controlChatId callerHumanAgentId : String) : CronScript Unit := do
  let engagement ← Script.read fun s => s.engagement.lookup (controlChatId, callerHumanAgentId)
  Script.check (if engagement = some .deleted then .error (forbidden "Control chat is deleted for the schedule owner") else .ok ())

/-- `assertSchedulable`, with its error as one of the API. -/
def schedulable (schedule timezone : String) (now : Int) : Except CronError Schedulable :=
  match assertSchedulable lib schedule timezone now with
  | .error (.invalidSchedule message) => .error (.app 400 "CRON_JOB_INVALID_SCHEDULE" message)
  | result => result

/-! ## Creation -/

/-- `resolveIdenticalCreateConflict`. -/
def resolveIdenticalCreateConflict (input : CreateCronJob) (scheduled : Schedulable) : CronScript (Option CronJob) := do
  let existing ← Script.read (jobNamed input.controlChatId input.agentId input.name)
  match existing with
  | none => pure none
  | some (id, existing) =>
    if existing.cronExpression = scheduled.schedule ∧ existing.timezone = scheduled.timezone ∧ existing.prompt = input.prompt then do
      let job ← projectCronJob id existing
      pure (some job)
    else pure none

/-- The owner of the job to create, under the locks of the route. -/
def lockCreateRoute (input : CreateCronJob) : CronScript String :=
  match input.callerMemberId, input.callerHumanAgentId with
  | some callerMemberId, some callerHumanAgentId => do
    assertCronAgentRouteAccess localeCompare input.controlChatId input.agentId callerMemberId callerHumanAgentId
    lockOwnerChatCronBarrier input.controlChatId callerMemberId
    assertCronOwnerEngagementAllowed input.controlChatId callerHumanAgentId
    pure callerMemberId
  | _, _ => do
    let agent ← Script.lockAndRead (fun s => if (s.agents.lookup input.agentId).isSome then [.agent input.agentId] else [])
      fun s => s.agents.lookup input.agentId
    match agent.filter fun a => decide (a.status = .active) with
    | none => throw (forbidden "Agent is not eligible to create scheduled jobs")
    | some agent => do
      lockOwnerChatCronBarrier input.controlChatId agent.managerId
      pure agent.managerId

/-- What an insertion into `cron_jobs` finds. -/
inductive CronInsertion where
  | inserted | nameTaken | idTaken

/-- What the insertion of a job meets in the store. -/
def insertionOf (input : CreateCronJob) (s : CronStore) : CronInsertion :=
  if (s.identities.lookup input.id).isSome then .idTaken
  else if (jobNamed input.controlChatId input.agentId input.name s).isSome then .nameTaken
  else .inserted

/-- The row of a new job. -/
def newJob (input : CreateCronJob) (ownerMemberId : String) (scheduled : Schedulable) : CronJobRow :=
  { ownerMemberId := ownerMemberId, controlChatId := input.controlChatId, agentId := input.agentId, name := input.name
    chatMode := .reuseControlChat, cronExpression := scheduled.schedule, timezone := scheduled.timezone, prompt := input.prompt
    state := .active, stateReason := none, revision := 1, nextRunAt := some scheduled.nextRunAt, lastTriggerMessageId := none }

/-- The store with a new job. -/
def addJob (id : String) (row : CronJobRow) (s : CronStore) : CronStore :=
  { setJob id row s with identities := s.identities.insert id row.toCronJobIdentity }

/-- The insertion of a job that does nothing where its name is taken. -/
def insertJob (input : CreateCronJob) (row : CronJobRow) : CronScript CronInsertion :=
  Script.exec (fun _ => [.job input.id, .jobName input.controlChatId input.agentId input.name])
    (fun view store => match insertionOf input view with
      | .inserted => addJob input.id row store
      | _ => store)
    (insertionOf input)

/-- `createCronJob`. -/
def createCronJob (input : CreateCronJob) : CronScript CronJob := do
  let now ← databaseNow
  let scheduled ← Script.check (schedulable lib input.schedule input.timezone now)
  Script.transaction (do
    let ownerMemberId ← lockCreateRoute localeCompare input
    let validated ← revalidateOwnerChatAgent ⟨ownerMemberId, input.controlChatId, input.agentId⟩ .reuseControlChat
    match validated with
    | .error reason => throw (forbidden s!"Cannot create schedule ({reason.text})")
    | .ok validated => do
      let identicalPre ← resolveIdenticalCreateConflict input scheduled
      match identicalPre with
      | some job => pure job
      | none => do
        let conflicting ← Script.read (jobNamed input.controlChatId input.agentId input.name)
        if conflicting.isSome then throw (.app 409 "CRON_JOB_NAME_CONFLICT" "A cron job with this name already exists")
        else do
          let row := newJob input validated.ownerMemberId scheduled
          let insertion ← insertJob input row
          match insertion with
          | .idTaken => throw .database
          | .nameTaken => do
            let identical ← resolveIdenticalCreateConflict input scheduled
            match identical with
            | some job => pure job
            | none => throw (.app 409 "CRON_JOB_NAME_CONFLICT" "A cron job with this name already exists")
          | .inserted => projectCronJob input.id row)

/-! ## Updates and deletions -/

/-- What a call checks of the identity of the job, before and after it has the lock of its row. -/
def checkTarget (verb : String) (input : CronJobTarget) (job : CronJobIdentity) : Except CronError Unit :=
  if (input.agentScope.filter fun scope => decide (scope ≠ (job.agentId, job.controlChatId))).isSome then
    .error (.app 404 "CRON_JOB_NOT_FOUND" "Cron job not found")
  else if (input.ownerMemberId.filter fun id => decide (id ≠ job.ownerMemberId)).isSome then
    .error (forbidden s!"Only the schedule owner may {verb} this job")
  else if (input.callerMemberId.filter fun id => decide (id ≠ job.ownerMemberId)).isSome then
    .error (forbidden s!"Only the schedule owner may {verb} this job")
  else .ok ()

/-- The answer for a job that is not there. -/
def foundOr404 {α : Type} : Option α → Except CronError α
  | some a => .ok a
  | none => .error (.app 404 "CRON_JOB_NOT_FOUND" "Cron job not found")

/-- The locks an update or a deletion takes before the row's: those of its route, or the barrier where it resumes the job. -/
def lockTargetRoute (input : CronJobTarget) (peek : CronJobIdentity) (resumes : Bool) : CronScript Unit :=
  match input.callerMemberId, input.callerHumanAgentId with
  | some callerMemberId, some callerHumanAgentId => do
    assertCronAgentRouteAccess localeCompare peek.controlChatId peek.agentId callerMemberId callerHumanAgentId
    lockOwnerChatCronBarrier peek.controlChatId peek.ownerMemberId
    assertCronOwnerEngagementAllowed peek.controlChatId callerHumanAgentId
  | _, _ => if resumes then lockOwnerChatCronBarrier peek.controlChatId peek.ownerMemberId else pure ()

/-- `lockJob`. -/
def lockJob (jobId : String) : CronScript CronJobRow := do
  let found ← Script.lockAndRead (fun s => if (s.jobs.lookup jobId).isSome then [.job jobId] else []) fun s => s.jobs.lookup jobId
  Script.check (foundOr404 found)

/-- `assertRevision`. -/
def assertRevision (job : CronJobRow) (expected : Nat) : Except CronError Unit :=
  if job.revision ≠ expected then .error (.app 409 "CRON_JOB_REVISION_MISMATCH" "Cron job revision mismatch") else .ok ()

/-- The peek at the job, the locks, and the checks again under the lock of its row. -/
def lockTarget (verb : String) (input : CronJobTarget) (resumes : Bool) : CronScript CronJobRow := do
  let found ← Script.read fun s => s.jobs.lookup input.jobId
  let peek ← Script.check (foundOr404 found)
  Script.check (checkTarget verb input peek.toCronJobIdentity)
  lockTargetRoute localeCompare input peek.toCronJobIdentity resumes
  let job ← lockJob input.jobId
  Script.check (checkTarget verb input job.toCronJobIdentity)
  Script.check (assertRevision job input.expectedRevision)
  pure job

/-- The state, its reason and the next run that a body asks for. -/
def requestedState (body : UpdateCronJobRequest) (job : CronJobRow) : CronJobState × Option CronJobPauseReason × Option Int :=
  match body.state with
  | some .paused => (.paused, some .userPaused, none)
  | some .active => (.active, none, job.nextRunAt)
  | none => (job.state, job.stateReason, job.nextRunAt)

/-- A body resumes a job. -/
def resuming (body : UpdateCronJobRequest) (job : CronJobRow) : Bool :=
  decide (body.state = some .active ∧ job.state ≠ .active)

/-- The row that an update leaves, by the schedule it has normalized, if any. -/
def updatedJob (body : UpdateCronJobRequest) (job : CronJobRow) (normalized : Option Schedulable) : CronJobRow :=
  let (nextState, nextReason, keptRunAt) := requestedState body job
  let schedule := (normalized.map fun n => n.schedule).getD job.cronExpression
  let timezone := (normalized.map fun n => n.timezone).getD job.timezone
  let scheduleChanged := decide (schedule ≠ job.cronExpression ∨ timezone ≠ job.timezone)
  let renewed := match normalized with
    | some n => if nextState = .active ∧ (resuming body job = true ∨ scheduleChanged = true) then some n.nextRunAt else keptRunAt
    | none => keptRunAt
  { job with
    name := body.name.getD job.name, prompt := body.prompt.getD job.prompt, cronExpression := schedule, timezone := timezone
    state := nextState, stateReason := nextReason, nextRunAt := if nextState = .paused then none else renewed
    revision := job.revision + 1 }

/-- An update that leaves a job as it is. -/
def unchanged (job updated : CronJobRow) : Bool :=
  decide ({ updated with revision := job.revision } = job)

/-- The normalized schedule of an update that supplies one, or that resumes the job. -/
def normalizedFor (body : UpdateCronJobRequest) (job : CronJobRow) : CronScript (Option Schedulable) :=
  if body.schedule.isSome || body.timezone.isSome || resuming body job then do
    let now ← databaseNow
    let normalized ← Script.check (schedulable lib (body.schedule.getD job.cronExpression) (body.timezone.getD job.timezone) now)
    pure (some normalized)
  else pure none

/-- Another job has the name that an update sets. -/
def nameConflict (jobId : String) (job updated : CronJobRow) (s : CronStore) : Bool :=
  decide (updated.name ≠ job.name) &&
    ((jobNamed job.controlChatId job.agentId updated.name s).filter fun e => decide (e.1 ≠ jobId)).isSome

/-- The update of a job, which fails where its new name is taken. -/
def writeUpdate (jobId : String) (job updated : CronJobRow) : CronScript Unit := do
  let conflict ← Script.exec
    (fun _ => .job jobId :: if updated.name ≠ job.name then [.jobName job.controlChatId job.agentId updated.name] else [])
    (fun view store => if nameConflict jobId job updated view then store
      else modifyJob jobId (fun row => { updated with lastTriggerMessageId := row.lastTriggerMessageId }) store)
    (nameConflict jobId job updated)
  Script.check (if conflict then .error (.app 409 "CRON_JOB_NAME_CONFLICT" "A cron job with this name already exists") else .ok ())

/-- The check of an update that resumes its job. -/
def revalidateForResume (body : UpdateCronJobRequest) (job : CronJobRow) : CronScript Unit :=
  if body.state = some .active then do
    let auth ← revalidateOwnerChatAgent job.toCronJobIdentity job.chatMode
    Script.check (match auth with
      | .ok _ => .ok ()
      | .error reason => .error (forbidden s!"Cannot resume schedule ({reason.text})"))
  else pure ()

/-- `updateCronJob`. -/
def updateCronJob (input : CronJobTarget) (body : UpdateCronJobRequest) : CronScript CronJob :=
  Script.transaction (do
    let job ← lockTarget localeCompare "modify" input (decide (body.state = some .active))
    revalidateForResume body job
    let normalized ← normalizedFor lib body job
    let updated := updatedJob body job normalized
    if unchanged job updated then projectCronJob input.jobId job
    else do
      writeUpdate input.jobId job updated
      projectCronJob input.jobId updated)

/-- The store without a job. -/
def dropJob (id : String) (s : CronStore) : CronStore := { s with jobs := s.jobs.erase id }

/-- `deleteCronJob`. -/
def deleteCronJob (input : CronJobTarget) : CronScript DeleteCronJobResponse :=
  Script.transaction (do
    let job ← lockTarget localeCompare "delete" input false
    Script.exec (fun _ => [.job input.jobId]) (fun _ store => dropJob input.jobId store) fun _ => ()
    pure ⟨input.jobId, job.lastTriggerMessageId.isSome, job.lastTriggerMessageId⟩)

/-! ## The deletion of a chat -/

/-- The active jobs of an owner in a chat. -/
def activeJobs (controlChatId ownerMemberId : String) (s : CronStore) : List String :=
  (s.jobs.entries.filter fun e =>
    decide (e.2.controlChatId = controlChatId ∧ e.2.ownerMemberId = ownerMemberId ∧ e.2.state = .active)).map (·.1)

/-- The store with some jobs paused. -/
def pauseAll (reason : CronJobPauseReason) (ids : List String) (s : CronStore) : CronStore :=
  ids.foldl (fun s id => modifyJob id (autoPause reason) s) s

/-- `pauseActiveJobsForOwnerChatDelete`. -/
def pauseActiveJobsForOwnerChatDelete (controlChatId ownerMemberId : String) : CronScript Nat := do
  lockOwnerChatCronBarrier controlChatId ownerMemberId
  let locked ← Script.lockAndRead (fun s => (activeJobs controlChatId ownerMemberId s).map .job)
      (activeJobs controlChatId ownerMemberId)
  if locked.isEmpty then pure 0
  else do
    Script.exec (fun s => (activeJobs controlChatId ownerMemberId s).map .job)
      (fun view store => pauseAll .ownerChatDeleted (activeJobs controlChatId ownerMemberId view) store) fun _ => ()
    pure locked.length

/-- The store with the engagement of an agent in a chat. -/
def setEngagement (chatId agentId : String) (status : EngagementStatus) (s : CronStore) : CronStore :=
  { s with engagement := s.engagement.insert (chatId, agentId) status }

/-- The write of an engagement, over what is there. -/
def upsertEngagement (chatId agentId : String) (status : EngagementStatus) : CronScript Unit :=
  Script.exec (fun _ => [.engagement chatId agentId]) (fun _ store => setEngagement chatId agentId status store) fun _ => ()

/-- The member of a human agent. -/
def memberOfAgent (agentId : String) (s : CronStore) : Option String :=
  (s.members.entries.find? fun e => decide (e.2.agentId = agentId)).map (·.1)

/-- `setChatEngagement`. -/
def setChatEngagement (chatId agentId : String) (status : EngagementStatus) : CronScript Unit :=
  if status = .deleted then Script.transaction (do
    let member ← Script.read (memberOfAgent agentId)
    match member with
    | some memberId => do
      let _ ← pauseActiveJobsForOwnerChatDelete chatId memberId
      upsertEngagement chatId agentId status
    | none => upsertEngagement chatId agentId status)
  else Script.transaction (upsertEngagement chatId agentId status)

/-- The route that sets the engagement of its caller, whose human agent it finds by the membership. -/
def postEngagement (chatId callerMemberId : String) (status : EngagementStatus) : CronScript Unit := do
  let caller ← Script.read fun s => s.members.lookup callerMemberId
  match caller with
  | none => throw (forbidden "Not a member of this organization")
  | some caller => setChatEngagement chatId caller.agentId status

/-! ## Sweeps -/

/-- `CronOccurrenceSkipReason`, as far as the dispatch of an agent gives one. -/
inductive CronDispatchSkip where
  | agentOffline | clientPaused | routeStale

/-- `readCurrentDispatchability`, with the reason where the agent cannot be reached. -/
def readCurrentDispatchability (agentId : String) (now : Int) (staleSeconds : Int) : CronScript (Option CronDispatchSkip) := do
  let agent ← Script.read fun s => s.agents.lookup agentId
  match (agent.filter fun a => decide (a.status = .active)).bind fun a => a.clientId with
  | none => pure (some .agentOffline)
  | some clientId => do
    let presence ← Script.read fun s => s.routes.presence.lookup agentId
    match presence.filter fun p => p.online && p.clientId.isSome && p.instanceId.isSome with
    | none => pure (some .agentOffline)
    | some presence =>
      if presence.clientId ≠ some clientId then pure (some .routeStale)
      else do
        let client ← Script.read fun s => s.routes.clients.lookup clientId
        match client.filter fun c => c.retiredAt.isNone && c.connected && c.instanceId.isSome with
        | none => pure (some .agentOffline)
        | some client =>
          if client.instanceId ≠ presence.instanceId then pure (some .routeStale)
          else if client.pausedReason.isSome then pure (some .clientPaused)
          else
            let staleMs := staleSeconds * 1000
            if now - client.lastSeenAt > staleMs ∨ now - presence.lastSeenAt > staleMs then pure (some .routeStale)
            else do
              let lastHeartbeat ← Script.read fun s => s.routes.instances.lookup (client.instanceId.getD "")
              match lastHeartbeat with
              | none => pure (some .routeStale)
              | some lastHeartbeat => if now - lastHeartbeat > staleMs then pure (some .routeStale) else pure none

/-- `buildCronRunKey`. -/
def buildCronRunKey (jobId : String) (scheduledFor : Int) : String := s!"cron/{jobId}/{lib.toISOString scheduledFor}"

/-- `buildTriggerContent`. -/
def buildTriggerContent (snapshot : AuthorizationSnapshot) (job : CronJobRow) (scheduledFor : Int) (runKey : String) : String :=
  let mention := match snapshot.agentName.filter fun name => decide (name ≠ "") with
    | some name => s!"@{name}"
    | none => s!"@{snapshot.agentDisplayName}"
  String.intercalate "\n" [mention, "", s!"[Scheduled job: {job.name}]",
    s!"Scheduled for: {lib.toISOString scheduledFor} ({job.timezone})", s!"Run key: {runKey}", "", "---", "", job.prompt]

/-- The store with a message. -/
def addMessage (id : String) (message : CronMessage) (s : CronStore) : CronStore :=
  { s with messages := s.messages.insert id message }

/-- The store with an entry of an inbox, where there is none. -/
def addEntry (key : String × String × String) (entry : CronInboxEntry) (s : CronStore) : CronStore :=
  match s.inbox.lookup key with
  | some _ => s
  | none => { s with inbox := s.inbox.insert key entry }

/-- What the send of a trigger writes, in the transaction of the sweep: its message, and the entry in the inbox of the agent. -/
def sendTrigger (send : TriggerSend) (snapshot : AuthorizationSnapshot) (message : CronMessage) : CronScript Unit := do
  Script.mayFail .database
  let found ← Script.exec (fun _ => [.message send.messageId])
    (fun view store => match view.messages.lookup send.messageId with
      | some _ => store
      | none => addMessage send.messageId message store)
    fun view => view.messages.lookup send.messageId
  Script.check (if found.isSome then .error .database else .ok ())
  if send.included then
    Script.exec (fun _ => []) (fun _ store => addEntry (snapshot.agentInboxId, send.messageId, message.chatId) ⟨.pending, true⟩ store)
      fun _ => ()
  else pure ()
  Script.mayFail .database
  Script.check (if send.included then .ok () else .error (.unexpected "cron target notify recipient missing"))

/-- A job is due. -/
def isDue (clock : Int) (job : CronJobRow) : Bool :=
  decide (job.state = .active) && (job.nextRunAt.filter fun next => decide (next ≤ clock)).isSome

/-- Before another in the order of the claim. -/
def claimedBefore (a b : String × CronJobRow) : Bool :=
  decide (a.2.nextRunAt.getD 0 < b.2.nextRunAt.getD 0) || decide (a.2.nextRunAt.getD 0 = b.2.nextRunAt.getD 0) && decide (a.1 ≤ b.1)

/-- The due jobs, in the order of the claim. -/
def dueJobs (s : CronStore) : List String :=
  (((s.jobs.entries.filter fun e => isDue s.clock e.2).map fun e => (e.1, e.2)).mergeSort claimedBefore).map (·.1)

/-- The claim of the first due job whose row no other transaction has locked; which rows are is a choice. A row that was written
since the snapshot is looked at again. -/
def claimDue : List String → CronScript (Option (String × CronJobRow × Int))
  | [] => pure none
  | id :: ids => do
    let skipLocked ← Script.choose
    if skipLocked then claimDue ids
    else do
      let row ← Script.lockAndRead (fun s => if ((s.jobs.lookup id).filter (isDue s.clock)).isSome then [.job id] else [])
        fun s => (s.jobs.lookup id).filter (isDue s.clock)
      match row.bind fun row => row.nextRunAt.map fun next => (row, next) with
      | some (row, scheduledFor) => pure (some (id, row, scheduledFor))
      | none => claimDue ids

/-- The pause of a job by a sweep. -/
def pauseClaimed (id : String) (reason : CronJobPauseReason) : CronScript Unit := updateJob id (autoPause reason)

/-- The next run of a job whose occurrence a sweep skips. -/
def skipClaimed (id : String) (nextRunAt : Int) : CronScript Unit := updateJob id fun row => { row with nextRunAt := some nextRunAt }

/-- The trigger of a job, and its next run. -/
def acceptClaimed (send : TriggerSend) (snapshot : AuthorizationSnapshot) (id : String) (job : CronJobRow)
    (scheduledFor nextRunAt : Int) : CronScript Unit := do
  let runKey := buildCronRunKey lib id scheduledFor
  sendTrigger send snapshot
    { chatId := job.controlChatId, content := buildTriggerContent lib snapshot job scheduledFor runKey
      cronTrigger := some ⟨id, scheduledFor, runKey⟩ }
  updateJob id fun row => { row with nextRunAt := some nextRunAt, lastTriggerMessageId := some send.messageId }

/-- What a sweep does with a job it has validated. -/
def dispatchClaimed (staleSeconds : Int) (send : TriggerSend) (snapshot : AuthorizationSnapshot) (id : String) (job : CronJobRow)
    (now scheduledFor nextRunAt : Int) : CronScript Unit := do
  let outstanding ← loadOutstanding job
  match outstanding, decide (now > scheduledFor + cronDispatchGraceMs) with
  | .missing, _ => pauseClaimed id .inboxStateMissing
  | _, true => skipClaimed id nextRunAt
  | .outstanding _ _, false => skipClaimed id nextRunAt
  | .none, false => do
    let route ← readCurrentDispatchability job.agentId now staleSeconds
    match route with
    | some _ => skipClaimed id nextRunAt
    | none => acceptClaimed lib send snapshot id job scheduledFor nextRunAt

/-- What a sweep does with a job it has claimed. -/
def processClaimed (staleSeconds : Int) (send : TriggerSend) (id : String) (job : CronJobRow) (scheduledFor : Int) :
    CronScript Unit := do
  let now ← databaseNow
  match firstOccurrenceStrictlyAfter lib job.cronExpression job.timezone now with
  | .error (.invalidSchedule _) => pauseClaimed id .invalidSchedule
  | .error e => throw e
  | .ok none => pauseClaimed id .invalidSchedule
  | .ok (some nextRunAt) => do
    let permanent ← revalidateOwnerChatAgent job.toCronJobIdentity job.chatMode
    match permanent with
    | .error reason => pauseClaimed id reason
    | .ok snapshot => dispatchClaimed lib staleSeconds send snapshot id job now scheduledFor nextRunAt

/-- `claimAndProcessOne`: whether there was a job. -/
def claimAndProcessOne (staleSeconds : Int) (send : TriggerSend) : CronScript Bool :=
  Script.transaction (do
    let due ← Script.read dueJobs
    let claimed ← claimDue due
    match claimed with
    | none => pure false
    | some (id, job, scheduledFor) => do
      processClaimed lib staleSeconds send id job scheduledFor
      pure true)

/-- The loop of `sweepCronJobs`, by the jobs it may still process. -/
def sweepLoop (staleSeconds : Int) (sends : Nat → TriggerSend) : Nat → CronScript Unit
  | 0 => pure ()
  | left + 1 => do
    let processed ← tryCatch (claimAndProcessOne lib staleSeconds (sends left)) fun _ => pure false
    if processed then sweepLoop staleSeconds sends left else pure ()

/-- `sweepCronJobs`. -/
def sweepCronJobs (staleSeconds : Int) (sends : Nat → TriggerSend) : CronScript Unit :=
  sweepLoop lib staleSeconds sends maxJobsPerSweep

/-! ## What other services write -/

/-- The changes of the entries of an inbox. -/
inductive InboxChange where
  | insert (entry : CronInboxEntry)
  | claim
  | ack
  | reset
  | silence
  | prune

/-- The entry after a change. -/
def InboxChange.entry : InboxChange → Option CronInboxEntry → Option CronInboxEntry
  | .insert entry, none => some entry
  | .insert _, some entry => some entry
  | .claim, entry => entry.map fun e => if e.status = .pending then { e with status := .delivered } else e
  | .ack, entry => entry.map fun e => { e with status := .acked }
  | .reset, entry => entry.map fun e => if e.status = .delivered then { e with status := .pending } else e
  | .silence, entry => entry.map fun e => if e.status = .pending then { e with notify := false } else e
  | .prune, entry => entry.filter fun e => e.notify || decide (e.status = .delivered)

/-- A statement of another service: the clock goes on, or rows are written that these services read. -/
inductive CronWrite where
  | tick (milliseconds : Nat)
  | join (id : String) (member : CronMember)
  | memberStatus (id : String) (status : MemberStatus)
  | agent (id : String) (row : CronAgent)
  | membership (chatId agentId : String) (mode : Option ChatAccessMode)
  | message (id chatId content : String)
  | inbox (key : String × String × String) (change : InboxChange)
  | archive (chatId agentId : String)
  | routes (tables : CronRoutes)

/-- The rows after such a statement. A member has a human agent of its own, and keeps it. -/
def CronWrite.apply : CronWrite → CronStore → CronStore
  | .tick milliseconds, s => { s with clock := s.clock + milliseconds }
  | .join id member, s =>
    if (s.members.lookup id).isSome ∨ (memberOfAgent member.agentId s).isSome then s
    else { s with members := s.members.insert id member }
  | .memberStatus id status, s => match s.members.lookup id with
    | some member => { s with members := s.members.insert id { member with status := status } }
    | none => s
  | .agent id row, s => { s with agents := s.agents.insert id row }
  | .membership chatId agentId mode, s => match mode with
    | some mode => { s with memberships := s.memberships.insert (chatId, agentId) mode }
    | none => { s with memberships := s.memberships.erase (chatId, agentId) }
  | .message id chatId content, s => if (s.messages.lookup id).isSome then s else addMessage id ⟨chatId, content, none⟩ s
  | .inbox key change, s => match change.entry (s.inbox.lookup key) with
    | some entry => { s with inbox := s.inbox.insert key entry }
    | none => { s with inbox := s.inbox.erase key }
  | .archive chatId agentId, s => setEngagement chatId agentId .archived s
  | .routes tables, s => { s with routes := tables }

/-- The locks of the rows such a statement writes, as far as others take them. -/
def CronWrite.locks : CronWrite → List CronLock
  | .join id _ | .memberStatus id _ => [.member id]
  | .agent id _ => [.agent id]
  | .membership chatId agentId _ => [.speaker chatId agentId]
  | .message id _ _ => [.message id]
  | .archive chatId agentId => [.engagement chatId agentId]
  | _ => []

/-- A statement of another service, in a transaction of its own. -/
def writeOther (write : CronWrite) : CronScript Unit :=
  Script.transaction (Script.exec (fun _ => write.locks) (fun _ store => write.apply store) fun _ => ())

end ScheduledJobs

/-! ## Calls -/

/-- The calls on the scheduled jobs. -/
inductive CronCall where
  | createCronJob (input : CreateCronJob)
  | updateCronJob (input : CronJobTarget) (body : UpdateCronJobRequest)
  | deleteCronJob (input : CronJobTarget)
  | postEngagement (chatId callerMemberId : String) (status : EngagementStatus)
  | sweepCronJobs (staleSeconds : Int) (sends : Nat → TriggerSend)
  | writeOther (write : ScheduledJobs.CronWrite)

/-- The script of a call. -/
def CronCall.script (lib : CronLibrary) (localeCompare : String → String → Int) : CronCall → CronScript Unit
  | .createCronJob input => do let _ ← ScheduledJobs.createCronJob lib localeCompare input; pure ()
  | .updateCronJob input body => do let _ ← ScheduledJobs.updateCronJob lib localeCompare input body; pure ()
  | .deleteCronJob input => do let _ ← ScheduledJobs.deleteCronJob localeCompare input; pure ()
  | .postEngagement chatId callerMemberId status => ScheduledJobs.postEngagement chatId callerMemberId status
  | .sweepCronJobs staleSeconds sends => ScheduledJobs.sweepCronJobs lib staleSeconds sends
  | .writeOther write => ScheduledJobs.writeOther write

end FirstTree
