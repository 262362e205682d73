import FirstTree.Shared.SkillPaths
import Mathlib.Logic.Function.Basic

/-!
# The publisher of GitHub task replies

`submitGithubTaskReply` for one run: the stored submission, the comments of the issue, and any number of calls, each at a stage
between two of its effects. A call inspects the submission, prepares its token, claims the run, creates the comment and records
what came of it, or lists the comments and records the one it finds. An action takes one call one step on; a call may crash at any
stage.
-/

namespace FirstTree

/-- `GithubTaskReplyPublisherError`. -/
structure PublisherError where
  statusCode : Nat
  code : String
  text : String
  deriving DecidableEq, Repr

/-- What a call throws: an error of the publisher, or one of the database or the schema. -/
inductive ReplyError where
  | publisher (error : PublisherError)
  | database
  | invalidRequest
  deriving DecidableEq, Repr

/-- The entities a run may be about. -/
inductive TaskEntityType where
  | issue
  | pull_request
  deriving DecidableEq, Repr

/-- What is fixed of a run: its facts, the slug of the App, and the hash of a payload, which is taken to be injective. -/
structure TaskReplyRun (Agent Hash : Type) where
  runId : List Char
  repository : List Char
  entityType : TaskEntityType
  entityNumber : Nat
  agentUuid : Agent
  appSlug : List Char
  mentionsApp : List Char → Bool
  hash : List Char × TaskEntityType × Nat × List Char → Hash
  hash_injective : Function.Injective hash

/-- `GithubIssueComment`. -/
structure GithubIssueComment where
  id : Nat
  htmlUrl : List Char
  actor : List Char
  body : List Char
  deriving DecidableEq

/-- `GithubTaskReplyResponse`. -/
structure TaskReplyResponse where
  commentId : Nat
  commentUrl : List Char
  appActor : List Char
  deriving DecidableEq

/-- `GithubTaskReplySubmissionState`, without its times. -/
inductive Submission (Agent Client Attempt Hash : Type) where
  | pending
  | submitting (payloadHash : Hash) (attemptId : Attempt) (publisherClientId : Client)
  | unknown (payloadHash : Hash) (attemptId : Attempt) (publisherClientId : Client)
  | failed (payloadHash : Hash) (code : String)
  | submitted (payloadHash : Hash) (response : TaskReplyResponse) (publisherAgentUuid : Agent) (publisherClientId : Client)
  deriving DecidableEq

/-- Where a call is. -/
inductive ReplyStage (Agent Client Attempt Hash : Type) where
  | inspecting
  | preparing (reconcile : Option (Hash × Client))
  | claiming
  | setting
  | creating (attemptId : Attempt)
  | recording (attemptId : Attempt) (next : Submission Agent Client Attempt Hash) (result : Except PublisherError TaskReplyResponse)
  | listing (payloadHash : Hash) (publisherClientId : Client)
  | settling (payloadHash : Hash) (response : TaskReplyResponse) (publisherClientId : Client)
  | returned (response : TaskReplyResponse)
  | threw (error : ReplyError)
  | crashed
  deriving DecidableEq

/-- A call: its caller, the body of its request without trailing blanks, and its stage. -/
structure ReplyCall (Agent Client Attempt Hash : Type) where
  callerAgentUuid : Agent
  callerClientId : Client
  body : List Char
  stage : ReplyStage Agent Client Attempt Hash

/-- The run as it is stored, the comments of the issue, the chat row's lock and the calls; and, for what is said of a run, the bodies
that were claimed and those that were sent. -/
structure Publisher (Call Agent Client Attempt Hash : Type) where
  submission : Submission Agent Client Attempt Hash
  comments : List GithubIssueComment
  chatLock : Option Call
  calls : Call → Option (ReplyCall Agent Client Attempt Hash)
  claims : List (List Char)
  sent : List (List Char)

/-- What comes of a write: it is applied, or fails, or is applied and its answer lost. -/
inductive WriteOutcome where
  | applied
  | failed
  | lost
  deriving DecidableEq, Repr

/-- What comes of `createIssueComment`: the comment as GitHub stored it, or an error, with its status when GitHub answered, and the
comment that may be there all the same. -/
inductive CreateOutcome where
  | answered (comment : GithubIssueComment)
  | error (status : Option Nat) (created : Option GithubIssueComment)

/-- An action. What the loading of the facts, the checks of authority and the preparation throw, if they do, is part of it. -/
inductive PublisherOp (Call Agent Client Attempt : Type) where
  | submit (call : Call) (callerAgentUuid : Agent) (callerClientId : Client) (body : List Char)
  | inspect (call : Call) (facts authority : Option PublisherError)
  | prepare (call : Call) (thrown : Option PublisherError)
  | readClaim (call : Call) (facts authority : Option PublisherError)
  | writeClaim (call : Call) (attemptId : Attempt) (outcome : WriteOutcome)
  | create (call : Call) (outcome : CreateOutcome)
  | record (call : Call) (outcome : WriteOutcome)
  | list (call : Call) (fails : Bool)
  | settle (call : Call) (outcome : WriteOutcome)
  | crash (call : Call)
  | othersComment (comment : GithubIssueComment)

namespace TaskReplyPublisher

variable {Call Agent Client Attempt Hash : Type}

/-! ## Payloads -/

/-- `String.prototype.trimEnd`. -/
def trimEnd (t : List Char) : List Char := (t.reverse.dropWhile ShellCommandIo.isSpace).reverse

/-- `GITHUB_TASK_REPLY_RUN_MARKER_PREFIX`. -/
def runMarkerPrefix : List Char := "<!-- first-tree-github-task-reply-run:".toList

/-- `GITHUB_TASK_REPLY_BODY_MAX_BYTES`. -/
def bodyMaxBytes : Nat := 64 * 1024 - (2 + runMarkerPrefix.length + 36 + " -->".length)

/-- `String.prototype.includes`. -/
def includes (text part : List Char) : Bool := text.tails.any fun t => part.isPrefixOf t

/-- `githubTaskReplyRequestSchema` of a body. -/
def acceptsBody (body : List Char) : Bool :=
  body.any (fun c => !ShellCommandIo.isSpace c) && !includes body runMarkerPrefix &&
    decide (SkillPaths.utf8Length body ≤ bodyMaxBytes)

/-- `runMarker`. -/
def runMarker (runId : List Char) : List Char := runMarkerPrefix ++ runId ++ " -->".toList

/-- `replyBody`. -/
def replyBody (body runId : List Char) : List Char := trimEnd body ++ '\n' :: '\n' :: runMarker runId

/-- `hashPayload`. -/
def hashPayload (run : TaskReplyRun Agent Hash) (body : List Char) : Hash :=
  run.hash (run.repository, run.entityType, run.entityNumber, trimEnd body)

/-- The actor of the App's comments. -/
def appActor (run : TaskReplyRun Agent Hash) : List Char := run.appSlug ++ "[bot]".toList

/-- `submittedResponse` of a comment. -/
def responseOf (comment : GithubIssueComment) : TaskReplyResponse := ⟨comment.id, comment.htmlUrl, comment.actor⟩

/-! ## Errors -/

/-- `payloadMismatch`. -/
def payloadMismatch : PublisherError :=
  ⟨409, "GITHUB_TASK_REPLY_RUN_PAYLOAD_MISMATCH", "This run was already claimed with a different immutable reply payload."⟩

/-- `alreadySubmitted`. -/
def alreadySubmitted : PublisherError :=
  ⟨409, "GITHUB_TASK_REPLY_RUN_ALREADY_SUBMITTED", "This GitHub task reply run already has an active or terminal publication claim."⟩

/-- `forbidden`. -/
def forbidden (text : String) : PublisherError := ⟨403, "GITHUB_TASK_REPLY_RUN_FORBIDDEN", text⟩

/-- The error of `authorizeRun`. -/
def notTaskAgent : PublisherError := forbidden "Only the exact task Agent recorded on this run can publish its App reply."

/-- The error of `assertNoAppMention`. -/
def mentionsAppError : PublisherError :=
  ⟨400, "GITHUB_TASK_REPLY_INVALID_REQUEST", "The App-authored terminal reply must not mention the GitHub App again."⟩

/-- An error that leaves the delivery unknown. -/
def githubUnknown (text : String) : PublisherError := ⟨502, "GITHUB_TASK_REPLY_GITHUB_UNKNOWN", text⟩

/-- `mapGithubMutationError` of a status. -/
def mapGithubMutationError (status : Nat) : PublisherError :=
  if status = 401 ∨ status = 403 then
    ⟨422, "GITHUB_TASK_REPLY_APP_PERMISSION_REQUIRED", "GitHub rejected the App comment permission."⟩
  else if status = 404 then
    ⟨422, "GITHUB_TASK_REPLY_REPO_NOT_ACCESSIBLE",
      "GitHub no longer exposes the original Issue or pull request to this App installation."⟩
  else if status = 422 then
    ⟨422, "GITHUB_TASK_REPLY_GITHUB_REJECTED", "GitHub rejected the App-authored conversation comment."⟩
  else ⟨502, "GITHUB_TASK_REPLY_GITHUB_REJECTED", "GitHub task reply submission failed."⟩

/-! ## The stored submission -/

/-- `payloadHash` of a submission. -/
def Submission.payloadHash : Submission Agent Client Attempt Hash → Option Hash
  | .pending => none
  | .submitting payloadHash _ _ | .unknown payloadHash _ _ | .failed payloadHash _ | .submitted payloadHash _ _ _ => some payloadHash

/-- `attemptId` of a submission. -/
def Submission.attemptId : Submission Agent Client Attempt Hash → Option Attempt
  | .submitting _ attemptId _ | .unknown _ attemptId _ => some attemptId
  | _ => none

/-- Whether a submission is `submitting` or `unknown`. -/
def Submission.isOpen : Submission Agent Client Attempt Hash → Bool
  | .submitting _ _ _ | .unknown _ _ _ => true
  | _ => false

/-- A conditional update: the submission after it, and whether it touched the row, or nothing when it throws. -/
def conditionalUpdate (current next : Submission Agent Client Attempt Hash) (touches : Bool) :
    WriteOutcome → Submission Agent Client Attempt Hash × Option Bool
  | .applied => (if touches then next else current, some touches)
  | .failed => (current, none)
  | .lost => (if touches then next else current, none)

/-- `setSubmissionIf` with the expected state `pending`. -/
def setSubmissionIf [DecidableEq Agent] [DecidableEq Client] [DecidableEq Attempt] [DecidableEq Hash]
    (current next : Submission Agent Client Attempt Hash) (outcome : WriteOutcome) :
    Submission Agent Client Attempt Hash × Option Bool :=
  conditionalUpdate current next (decide (current = .pending)) outcome

/-- `setSubmissionForAttempt`. -/
def setSubmissionForAttempt [DecidableEq Attempt] (current : Submission Agent Client Attempt Hash) (attemptId : Attempt)
    (next : Submission Agent Client Attempt Hash) (outcome : WriteOutcome) : Submission Agent Client Attempt Hash × Option Bool :=
  conditionalUpdate current next (decide (Submission.attemptId current = some attemptId)) outcome

/-- `setSubmissionForPayload`. -/
def setSubmissionForPayload [DecidableEq Hash] (current : Submission Agent Client Attempt Hash) (payloadHash : Hash)
    (next : Submission Agent Client Attempt Hash) (outcome : WriteOutcome) : Submission Agent Client Attempt Hash × Option Bool :=
  conditionalUpdate current next (decide (Submission.payloadHash current = some payloadHash) && Submission.isOpen current) outcome

/-! ## Where a call goes -/

/-- The call throws an error of the publisher. -/
def throws (error : PublisherError) : ReplyStage Agent Client Attempt Hash := .threw (.publisher error)

section Stages

variable [DecidableEq Agent] [DecidableEq Hash]

/-- The first transaction. What loads the facts and what checks the current authority may throw. -/
def inspection (run : TaskReplyRun Agent Hash) (c : ReplyCall Agent Client Attempt Hash)
    (submission : Submission Agent Client Attempt Hash)
    (facts authority : Option PublisherError) : ReplyStage Agent Client Attempt Hash :=
  match facts with
  | some error => throws error
  | none =>
    if c.callerAgentUuid ≠ run.agentUuid then throws notTaskAgent
    else
      match submission with
      | .submitted payloadHash response _ _ =>
        if payloadHash ≠ hashPayload run c.body then throws payloadMismatch else .returned response
      | .failed _ _ => throws alreadySubmitted
      | .submitting payloadHash _ publisherClientId | .unknown payloadHash _ publisherClientId =>
        match authority with
        | some error => throws error
        | none =>
          if payloadHash ≠ hashPayload run c.body then throws payloadMismatch
          else .preparing (some (payloadHash, publisherClientId))
      | .pending =>
        match authority with
        | some error => throws error
        | none => .preparing none

/-- The check of mentions and `prepareGithubPublisher`, which may throw. -/
def preparation (run : TaskReplyRun Agent Hash) (c : ReplyCall Agent Client Attempt Hash) (reconcile : Option (Hash × Client))
    (thrown : Option PublisherError) : ReplyStage Agent Client Attempt Hash :=
  if run.mentionsApp c.body then throws mentionsAppError
  else
    match thrown, reconcile with
    | some error, _ => throws error
    | none, some (payloadHash, publisherClientId) => .listing payloadHash publisherClientId
    | none, none => .claiming

/-- The second transaction up to its update. -/
def claimDecision (run : TaskReplyRun Agent Hash) (c : ReplyCall Agent Client Attempt Hash)
    (submission : Submission Agent Client Attempt Hash) (facts authority : Option PublisherError) :
    ReplyStage Agent Client Attempt Hash :=
  match facts with
  | some error => throws error
  | none =>
    if c.callerAgentUuid ≠ run.agentUuid then throws notTaskAgent
    else
      match authority with
      | some error => throws error
      | none =>
        match submission with
        | .submitted payloadHash response _ _ =>
          if payloadHash ≠ hashPayload run c.body then throws payloadMismatch else .returned response
        | .failed _ _ => throws alreadySubmitted
        | .submitting payloadHash _ publisherClientId | .unknown payloadHash _ publisherClientId =>
          if payloadHash ≠ hashPayload run c.body then throws payloadMismatch else .listing payloadHash publisherClientId
        | .pending => .setting

/-- The end of the second transaction. -/
def claimEnd (attemptId : Attempt) : Option Bool → ReplyStage Agent Client Attempt Hash
  | none => .threw .database
  | some false => throws alreadySubmitted
  | some true => .creating attemptId

/-- `isUnknownGithubWrite`: GitHub did not answer, or with a status from 500 on. -/
def isUnknownGithubWrite : Option Nat → Bool
  | none => true
  | some status => decide (500 ≤ status)

/-- What a call goes on to record after `createIssueComment`. -/
def creation (run : TaskReplyRun Agent Hash) (c : ReplyCall Agent Client Attempt Hash) (attemptId : Attempt) :
    CreateOutcome → ReplyStage Agent Client Attempt Hash
  | .answered comment =>
    if comment.actor ≠ appActor run ∨ comment.body ≠ replyBody c.body run.runId then
      .recording attemptId (.unknown (hashPayload run c.body) attemptId c.callerClientId)
        (.error (githubUnknown
          "GitHub returned a comment whose App actor or immutable reply payload could not be verified. Reconciliation is required."))
    else
      .recording attemptId (.submitted (hashPayload run c.body) (responseOf comment) run.agentUuid c.callerClientId)
        (.ok (responseOf comment))
  | .error status _ =>
    if isUnknownGithubWrite status then
      .recording attemptId (.unknown (hashPayload run c.body) attemptId c.callerClientId)
        (.error (githubUnknown
          "GitHub comment delivery is unknown. This run will reconcile the exact hidden marker before any retry."))
    else
      .recording attemptId (.failed (hashPayload run c.body) (mapGithubMutationError (status.getD 0)).code)
        (.error (mapGithubMutationError (status.getD 0)))

/-- The end of a call that recorded what came of its comment. -/
def recordEnd (result : Except PublisherError TaskReplyResponse) (touched : Option Bool) : ReplyStage Agent Client Attempt Hash :=
  match result, touched with
  | .ok response, some true => .returned response
  | .ok _, _ => throws (githubUnknown "GitHub accepted the App comment but Cloud could not record it. Reconciliation is required.")
  | .error _, none => .threw .database
  | .error error, some _ => throws error

/-- `listIssueCommentsForRun`: the App's comments with the marker of the run. -/
def listIssueCommentsForRun (run : TaskReplyRun Agent Hash) (comments : List GithubIssueComment) : List GithubIssueComment :=
  comments.filter fun comment => decide (comment.actor = appActor run) && includes comment.body (runMarker run.runId)

/-- The first half of `reconcileUnknownSubmission`: the comment it finds. -/
def reconciliation (run : TaskReplyRun Agent Hash) (c : ReplyCall Agent Client Attempt Hash) (payloadHash : Hash)
    (publisherClientId : Client) (comments : List GithubIssueComment) (fails : Bool) : ReplyStage Agent Client Attempt Hash :=
  if fails then throws (githubUnknown "Unable to reconcile the unknown GitHub comment delivery.")
  else
    match (listIssueCommentsForRun run comments).filter fun comment => decide (comment.body = replyBody c.body run.runId) with
    | [comment] => .settling payloadHash (responseOf comment) publisherClientId
    | _ => throws (githubUnknown "The unknown GitHub comment delivery remains unresolved. Do not repeat the mutation.")

/-- The end of a call that recorded the comment it found. -/
def settleEnd (response : TaskReplyResponse) : Option Bool → ReplyStage Agent Client Attempt Hash
  | none => .threw .database
  | some _ => .returned response

end Stages

/-! ## Actions -/

section Actions

variable [DecidableEq Call] [DecidableEq Agent] [DecidableEq Client] [DecidableEq Attempt] [DecidableEq Hash]

/-- A call at a new stage. -/
def atStage (s : Publisher Call Agent Client Attempt Hash) (call : Call) (c : ReplyCall Agent Client Attempt Hash)
    (stage : ReplyStage Agent Client Attempt Hash) : Publisher Call Agent Client Attempt Hash :=
  { s with calls := Function.update s.calls call (some { c with stage := stage }) }

/-- The comment that is there after a creation. -/
def CreateOutcome.created : CreateOutcome → Option GithubIssueComment
  | .answered comment => some comment
  | .error _ created => created

/-- GitHub gives a comment a new id, and creates none when it answers with a status below 500. -/
def Possible (comments : List GithubIssueComment) : CreateOutcome → Prop
  | .answered comment => ∀ other ∈ comments, other.id ≠ comment.id
  | .error status created => (∀ comment ∈ created, ∀ other ∈ comments, other.id ≠ comment.id) ∧
      (isUnknownGithubWrite status = false → created = none)

instance (comments : List GithubIssueComment) (outcome : CreateOutcome) : Decidable (Possible comments outcome) := by
  cases outcome <;> unfold Possible <;> infer_instance

/-- A run whose card was just written. -/
def init : Publisher Call Agent Client Attempt Hash := ⟨.pending, [], none, fun _ => none, [], []⟩

/-- One action on the run. -/
def step (run : TaskReplyRun Agent Hash) (s : Publisher Call Agent Client Attempt Hash) :
    PublisherOp Call Agent Client Attempt → Option (Publisher Call Agent Client Attempt Hash)
  | .submit call callerAgentUuid callerClientId body =>
    match s.calls call with
    | some _ => none
    | none =>
      some (atStage s call ⟨callerAgentUuid, callerClientId, trimEnd body, .inspecting⟩
        (if acceptsBody body then .inspecting else .threw .invalidRequest))
  | .inspect call facts authority => do
    let c ← s.calls call
    match c.stage, s.chatLock with
    | .inspecting, none => some (atStage s call c (inspection run c s.submission facts authority))
    | _, _ => none
  | .prepare call thrown => do
    let c ← s.calls call
    match c.stage with
    | .preparing reconcile => some (atStage s call c (preparation run c reconcile thrown))
    | _ => none
  | .readClaim call facts authority => do
    let c ← s.calls call
    match c.stage, s.chatLock with
    | .claiming, none =>
      let stage := claimDecision run c s.submission facts authority
      some { atStage s call c stage with chatLock := if stage = .setting then some call else none }
    | _, _ => none
  | .writeClaim call attemptId outcome => do
    let c ← s.calls call
    match c.stage with
    | .setting =>
      let written := setSubmissionIf s.submission (.submitting (hashPayload run c.body) attemptId c.callerClientId) outcome
      some { atStage s call c (claimEnd attemptId written.2) with
        submission := written.1
        chatLock := none
        claims := if s.submission = .pending ∧ outcome ≠ .failed then s.claims ++ [c.body] else s.claims }
    | _ => none
  | .create call outcome => do
    let c ← s.calls call
    match c.stage with
    | .creating attemptId =>
      if Possible s.comments outcome then
        some { atStage s call c (creation run c attemptId outcome) with
          comments := s.comments ++ (CreateOutcome.created outcome).toList
          sent := s.sent ++ [replyBody c.body run.runId] }
      else none
    | _ => none
  | .record call outcome => do
    let c ← s.calls call
    match c.stage with
    | .recording attemptId next result =>
      let written := setSubmissionForAttempt s.submission attemptId next outcome
      some { atStage s call c (recordEnd result written.2) with submission := written.1 }
    | _ => none
  | .list call fails => do
    let c ← s.calls call
    match c.stage with
    | .listing payloadHash publisherClientId =>
      some (atStage s call c (reconciliation run c payloadHash publisherClientId s.comments fails))
    | _ => none
  | .settle call outcome => do
    let c ← s.calls call
    match c.stage with
    | .settling payloadHash response publisherClientId =>
      let written := setSubmissionForPayload s.submission payloadHash
        (.submitted payloadHash response run.agentUuid publisherClientId) outcome
      some { atStage s call c (settleEnd response written.2) with submission := written.1 }
    | _ => none
  | .crash call => do
    let c ← s.calls call
    some { atStage s call c .crashed with chatLock := if s.chatLock = some call then none else s.chatLock }
  | .othersComment comment =>
    if ∀ other ∈ s.comments, other.id ≠ comment.id then some { s with comments := s.comments ++ [comment] } else none

end Actions

end TaskReplyPublisher

end FirstTree
