import FirstTree.Lib.Runs
import FirstTree.Server.TaskReplyPublisher

/-!
# A task reply is published at most once

The run is claimed once, by one call, with one body; only that call sends a comment, and only its hash is ever stored. Its own
late record and the record of a call that found the comment meet at the guards of the updates, so that a submission only moves on.
The comments of others are not restricted.
-/

namespace FirstTree

open Runs TaskReplyPublisher

variable {Call Agent Client Attempt Hash : Type}

/-- The moves of the stored submission. -/
inductive SubmissionMoves : Submission Agent Client Attempt Hash → Submission Agent Client Attempt Hash → Prop where
  | same (submission) : SubmissionMoves submission submission
  | claimed (h a c) : SubmissionMoves .pending (.submitting h a c)
  | submitted (h a c r agent client) : SubmissionMoves (.submitting h a c) (.submitted h r agent client)
  | lost (h a c a' c') : SubmissionMoves (.submitting h a c) (.unknown h a' c')
  | refused (h a c code) : SubmissionMoves (.submitting h a c) (.failed h code)
  | settled (h a c r agent client) : SubmissionMoves (.unknown h a c) (.submitted h r agent client)

/-- A submission that is `submitted` or `failed`. -/
def IsFinal : Submission Agent Client Attempt Hash → Prop
  | .submitted _ _ _ _ | .failed _ _ => True
  | _ => False

/-- A response names a comment that has the reply of the body claimed first. -/
def NamesReply (run : TaskReplyRun Agent Hash) (claims : List (List Char)) (comments : List GithubIssueComment)
    (response : TaskReplyResponse) : Prop :=
  ∃ body comment, claims.head? = some body ∧ comment ∈ comments ∧ comment.body = replyBody body run.runId ∧
    response = responseOf comment

/-- At most one comment was sent, the stored hash is of the body claimed first, and what calls return names its reply. -/
structure PublishedOnce (run : TaskReplyRun Agent Hash) (s : Publisher Call Agent Client Attempt Hash) : Prop where
  once : s.sent.length ≤ 1
  hash : ∀ body, s.claims.head? = some body → Submission.payloadHash s.submission = some (hashPayload run body)
  named : ∀ call c response, s.calls call = some c → c.stage = .returned response → NamesReply run s.claims s.comments response

/-- In every run from the start a reply is published once; the submission only moves on; and afterwards its hash, and what is
final, stay. -/
def AlwaysPublishedOnce (run : TaskReplyRun Agent Hash)
    (steps : Publisher Call Agent Client Attempt Hash → PublisherOp Call Agent Client Attempt →
      Publisher Call Agent Client Attempt Hash → Prop) : Prop :=
  ∀ ops s, Run steps init ops s →
    PublishedOnce run s ∧ (∀ op t, steps s op t → SubmissionMoves s.submission t.submission) ∧
      ∀ ops' t, Run steps s ops' t →
        (∀ payloadHash, Submission.payloadHash s.submission = some payloadHash →
          Submission.payloadHash t.submission = some payloadHash) ∧ (IsFinal s.submission → t.submission = s.submission)

namespace TaskReplyPublisherAux

/-! ## What stages and submissions rest on -/

/-- The hash of a call that reconciles is of its own body and of the one claimed. -/
def HashOf (run : TaskReplyRun Agent Hash) (claims : List (List Char)) (body : List Char) (payloadHash : Hash) : Prop :=
  ∃ claimed, claims = [claimed] ∧ payloadHash = hashPayload run claimed ∧ payloadHash = hashPayload run body

/-- A submission that the claiming call may record. -/
def Recordable (run : TaskReplyRun Agent Hash) (claims : List (List Char)) (comments : List GithubIssueComment) (body : List Char) :
    Submission Agent Client Attempt Hash → Prop
  | .unknown payloadHash _ _ | .failed payloadHash _ => payloadHash = hashPayload run body
  | .submitted payloadHash response _ _ => payloadHash = hashPayload run body ∧ NamesReply run claims comments response
  | _ => False

/-- What holds of a call at a stage. -/
def StageOk (run : TaskReplyRun Agent Hash) (claims : List (List Char)) (comments : List GithubIssueComment) (body : List Char) :
    ReplyStage Agent Client Attempt Hash → Prop
  | .preparing (some (payloadHash, _)) | .listing payloadHash _ => HashOf run claims body payloadHash
  | .creating _ => claims = [body]
  | .recording _ next result => claims = [body] ∧ Recordable run claims comments body next ∧
      ∀ response, result = .ok response → NamesReply run claims comments response
  | .settling payloadHash response _ =>
      (∃ claimed, claims = [claimed] ∧ payloadHash = hashPayload run claimed) ∧ NamesReply run claims comments response
  | .returned response => NamesReply run claims comments response
  | _ => True

/-- What holds of the stored submission. -/
def SubmissionOk (run : TaskReplyRun Agent Hash) (claims : List (List Char)) (comments : List GithubIssueComment) :
    Submission Agent Client Attempt Hash → Prop
  | .pending => claims = []
  | .submitting payloadHash _ _ | .unknown payloadHash _ _ | .failed payloadHash _ =>
      ∃ claimed, claims = [claimed] ∧ payloadHash = hashPayload run claimed
  | .submitted payloadHash response _ _ =>
      (∃ claimed, claims = [claimed] ∧ payloadHash = hashPayload run claimed) ∧ NamesReply run claims comments response

/-- Whether a call is between its claim and its record. -/
def isAttempt : ReplyStage Agent Client Attempt Hash → Bool
  | .creating _ | .recording _ _ _ => true
  | _ => false

/-- Whether a submission is one that an attempt may still be under way for. -/
def awaitsAttempt : Submission Agent Client Attempt Hash → Bool
  | .submitting _ _ _ | .submitted _ _ _ _ => true
  | _ => false

/-- What holds of the run at any time. -/
structure Inv (run : TaskReplyRun Agent Hash) (s : Publisher Call Agent Client Attempt Hash) : Prop where
  submission : SubmissionOk run s.claims s.comments s.submission
  stages : ∀ call c, s.calls call = some c → StageOk run s.claims s.comments c.body c.stage
  attempt : ∀ call c, s.calls call = some c → isAttempt c.stage = true → awaitsAttempt s.submission = true
  sole : ∀ call c call' c', s.calls call = some c → s.calls call' = some c' → isAttempt c.stage = true → isAttempt c'.stage = true →
    call = call'
  once : s.sent.length ≤ 1
  unsent : ∀ call c attemptId, s.calls call = some c → c.stage = .creating attemptId → s.sent = []
  start : s.submission = .pending → s.sent = []

/-! ## Comments and claims that are added -/

section Growth

variable {run : TaskReplyRun Agent Hash} {claims claims' : List (List Char)} {comments comments' : List GithubIssueComment}

/-- A response still names its comment when more are there. -/
theorem NamesReply.mono (hclaims : claims = [] ∨ claims' = claims) (hcomments : comments ⊆ comments') {response : TaskReplyResponse}
    (h : NamesReply run claims comments response) : NamesReply run claims' comments' response := by
  obtain ⟨body, comment, hbody, hmem, hreply⟩ := h
  rcases hclaims with rfl | rfl
  · simp at hbody
  · exact ⟨body, comment, hbody, hcomments hmem, hreply⟩

/-- What is recordable stays so. -/
theorem Recordable.mono (hclaims : claims = [] ∨ claims' = claims) (hcomments : comments ⊆ comments') {body : List Char}
    {next : Submission Agent Client Attempt Hash} (h : Recordable run claims comments body next) :
    Recordable run claims' comments' body next := by
  cases next with
  | submitted payloadHash response => exact ⟨h.1, NamesReply.mono hclaims hcomments h.2⟩
  | _ => exact h

/-- What holds of a call's stage goes on to hold. -/
theorem StageOk.mono (hclaims : claims = [] ∨ claims' = claims) (hcomments : comments ⊆ comments') {body : List Char}
    {stage : ReplyStage Agent Client Attempt Hash} (h : StageOk run claims comments body stage) :
    StageOk run claims' comments' body stage := by
  have hsingle : ∀ {claimed : List Char}, claims = [claimed] → claims' = [claimed] := by
    intro claimed hclaimed
    rcases hclaims with rfl | rfl
    · simp at hclaimed
    · exact hclaimed
  have hhash : ∀ {payloadHash : Hash}, HashOf run claims body payloadHash → HashOf run claims' body payloadHash :=
    fun ⟨claimed, hclaimed, h⟩ => ⟨claimed, hsingle hclaimed, h⟩
  cases stage with
  | preparing reconcile =>
    cases reconcile with
    | none => trivial
    | some pair => exact hhash h
  | listing payloadHash => exact hhash h
  | creating attemptId => exact hsingle h
  | recording attemptId next result =>
    exact ⟨hsingle h.1, Recordable.mono hclaims hcomments h.2.1, fun r hr => NamesReply.mono hclaims hcomments (h.2.2 r hr)⟩
  | settling payloadHash response =>
    obtain ⟨⟨claimed, hclaimed, hhash⟩, hnames⟩ := h
    exact ⟨⟨claimed, hsingle hclaimed, hhash⟩, NamesReply.mono hclaims hcomments hnames⟩
  | returned response => exact NamesReply.mono hclaims hcomments h
  | _ => trivial

/-- What holds of a submission goes on to hold with more comments. -/
theorem SubmissionOk.mono (hcomments : comments ⊆ comments') {submission : Submission Agent Client Attempt Hash}
    (h : SubmissionOk run claims comments submission) : SubmissionOk run claims comments' submission := by
  cases submission with
  | submitted payloadHash response => exact ⟨h.1, NamesReply.mono (.inr rfl) hcomments h.2⟩
  | _ => exact h

end Growth

/-! ## Where a call goes -/

section Stages

variable {run : TaskReplyRun Agent Hash} {claims : List (List Char)} {comments : List GithubIssueComment}

/-- A stage that is no attempt and of which what must hold does. -/
def Calm (run : TaskReplyRun Agent Hash) (claims : List (List Char)) (comments : List GithubIssueComment) (body : List Char)
    (stage : ReplyStage Agent Client Attempt Hash) : Prop :=
  StageOk run claims comments body stage ∧ isAttempt stage = false

/-- A call that throws is calm. -/
theorem calm_throws (body : List Char) (error : PublisherError) :
    Calm run claims comments body (throws error : ReplyStage Agent Client Attempt Hash) := ⟨trivial, rfl⟩

variable [DecidableEq Agent] [DecidableEq Hash]

omit [DecidableEq Agent] [DecidableEq Hash] in
/-- The hash of a call that is let through is of its body and of the one claimed. -/
theorem hashOf_of_eq {c : ReplyCall Agent Client Attempt Hash} {payloadHash : Hash}
    (h : ∃ claimed, claims = [claimed] ∧ payloadHash = hashPayload run claimed) (heq : payloadHash = hashPayload run c.body) :
    HashOf run claims c.body payloadHash :=
  let ⟨claimed, hclaimed, hhash⟩ := h
  ⟨claimed, hclaimed, hhash, heq⟩

/-- The first transaction. -/
theorem calm_inspection {c : ReplyCall Agent Client Attempt Hash} {submission : Submission Agent Client Attempt Hash}
    (h : SubmissionOk run claims comments submission) (facts authority : Option PublisherError) :
    Calm run claims comments c.body (inspection run c submission facts authority) := by
  unfold inspection
  cases facts with
  | some error => exact calm_throws _ error
  | none =>
    dsimp only
    by_cases hagent : c.callerAgentUuid ≠ run.agentUuid
    · rw [if_pos hagent]
      exact calm_throws _ _
    · rw [if_neg hagent]
      cases submission with
      | pending =>
        cases authority with
        | some error => exact calm_throws _ error
        | none => exact ⟨trivial, rfl⟩
      | submitted payloadHash response =>
        dsimp only
        split
        · exact calm_throws _ _
        · exact ⟨h.2, rfl⟩
      | failed => exact calm_throws _ _
      | submitting payloadHash | unknown payloadHash =>
        cases authority with
        | some error => exact calm_throws _ error
        | none =>
          dsimp only
          split
          · exact calm_throws _ _
          · rename_i heq
            exact ⟨hashOf_of_eq h (not_not.1 heq), rfl⟩

omit [DecidableEq Agent] [DecidableEq Hash] in
/-- The preparation. -/
theorem calm_preparation {c : ReplyCall Agent Client Attempt Hash} {reconcile : Option (Hash × Client)}
    (h : StageOk run claims comments c.body (.preparing reconcile : ReplyStage Agent Client Attempt Hash))
    (thrown : Option PublisherError) : Calm run claims comments c.body (preparation run c reconcile thrown) := by
  unfold preparation
  split
  · exact calm_throws _ _
  · cases thrown with
    | some error => exact calm_throws _ error
    | none =>
      cases reconcile with
      | none => exact ⟨trivial, rfl⟩
      | some pair => exact ⟨h, rfl⟩

/-- The second transaction up to its update. -/
theorem calm_claimDecision {c : ReplyCall Agent Client Attempt Hash} {submission : Submission Agent Client Attempt Hash}
    (h : SubmissionOk run claims comments submission) (facts authority : Option PublisherError) :
    Calm run claims comments c.body (claimDecision run c submission facts authority) := by
  unfold claimDecision
  cases facts with
  | some error => exact calm_throws _ error
  | none =>
    dsimp only
    by_cases hagent : c.callerAgentUuid ≠ run.agentUuid
    · rw [if_pos hagent]
      exact calm_throws _ _
    · rw [if_neg hagent]
      cases authority with
      | some error => exact calm_throws _ error
      | none =>
        cases submission with
        | pending => exact ⟨trivial, rfl⟩
        | submitted payloadHash response =>
          dsimp only
          split
          · exact calm_throws _ _
          · exact ⟨h.2, rfl⟩
        | failed => exact calm_throws _ _
        | submitting payloadHash | unknown payloadHash =>
          dsimp only
          split
          · exact calm_throws _ _
          · rename_i heq
            exact ⟨hashOf_of_eq h (not_not.1 heq), rfl⟩

omit [DecidableEq Agent] [DecidableEq Hash] in
/-- Bodies of one hash have one reply. -/
theorem replyBody_eq_of_hash {body body' : List Char} (h : hashPayload run body = hashPayload run body') :
    replyBody body run.runId = replyBody body' run.runId := by
  have htrim : trimEnd body = trimEnd body' := by
    have := run.hash_injective h
    simpa using this
  rw [replyBody, htrim]
  rfl

omit [DecidableEq Agent] [DecidableEq Hash] in
/-- The comment that a reconciliation finds. -/
theorem calm_reconciliation {c : ReplyCall Agent Client Attempt Hash} {payloadHash : Hash} (publisherClientId : Client)
    (h : HashOf run claims c.body payloadHash) (fails : Bool) :
    Calm run claims comments c.body (reconciliation run c payloadHash publisherClientId comments fails) := by
  unfold reconciliation
  split
  · exact calm_throws _ _
  · split
    · rename_i comment hfound
      obtain ⟨claimed, hclaimed, hhash, hbody⟩ := h
      have hmem := List.mem_filter.1 (hfound ▸ List.mem_singleton_self comment)
      have hreply : comment.body = replyBody claimed run.runId := by
        rw [replyBody_eq_of_hash (hhash.symm.trans hbody)]
        exact of_decide_eq_true hmem.2
      have hcomment : comment ∈ comments := (List.mem_filter.1 hmem.1).1
      exact ⟨⟨⟨claimed, hclaimed, hhash⟩, claimed, comment, by rw [hclaimed]; rfl, hcomment, hreply, rfl⟩, rfl⟩
    · exact calm_throws _ _

omit [DecidableEq Agent] [DecidableEq Hash] in
/-- The end of a record. -/
theorem calm_recordEnd {body : List Char} {result : Except PublisherError TaskReplyResponse}
    (h : ∀ response, result = .ok response → NamesReply run claims comments response) (touched : Option Bool) :
    Calm run claims comments body (recordEnd result touched : ReplyStage Agent Client Attempt Hash) := by
  cases result with
  | error error =>
    cases touched with
    | none => exact ⟨trivial, rfl⟩
    | some touched => exact calm_throws _ _
  | ok response =>
    unfold recordEnd
    split
    · rename_i heq
      exact ⟨h _ heq, rfl⟩
    · exact calm_throws _ _
    · exact ⟨trivial, rfl⟩
    · exact calm_throws _ _

omit [DecidableEq Agent] [DecidableEq Hash] in
/-- What the claiming call goes on to record. -/
theorem creation_spec (run : TaskReplyRun Agent Hash) (comments : List GithubIssueComment) {c : ReplyCall Agent Client Attempt Hash}
    (attemptId : Attempt) (hclaims : claims = [c.body]) (outcome : CreateOutcome) :
    StageOk run claims (comments ++ (CreateOutcome.created outcome).toList) c.body (creation run c attemptId outcome) ∧
      ∃ next result, creation run c attemptId outcome = .recording attemptId next result := by
  cases outcome with
  | answered comment =>
    simp only [creation]
    split
    · exact ⟨⟨hclaims, rfl, by simp⟩, _, _, rfl⟩
    · rename_i hverified
      rw [not_or, not_not, not_not] at hverified
      have hnames : NamesReply run claims (comments ++ [comment]) (responseOf comment) :=
        ⟨c.body, comment, by rw [hclaims]; rfl, by simp, hverified.2, rfl⟩
      refine ⟨⟨hclaims, ⟨rfl, hnames⟩, fun response hresponse => ?_⟩, _, _, rfl⟩
      rw [← Except.ok.inj hresponse]
      exact hnames
  | error status created =>
    simp only [creation]
    split
    · exact ⟨⟨hclaims, rfl, by simp⟩, _, _, rfl⟩
    · exact ⟨⟨hclaims, rfl, by simp⟩, _, _, rfl⟩

end Stages

/-! ## Steps -/

section Steps

variable {run : TaskReplyRun Agent Hash} {s t : Publisher Call Agent Client Attempt Hash}

/-- One call goes on. Its new stage and the new submission are as they must be, and an attempt that begins or goes on is the only
one. -/
theorem Inv.move [DecidableEq Call] (hinv : Inv run s) {call : Call} {c : ReplyCall Agent Client Attempt Hash}
    (hcalls : t.calls = Function.update s.calls call (some c)) (hclaims : s.claims = [] ∨ t.claims = s.claims)
    (hcomments : s.comments ⊆ t.comments) (hsubmission : SubmissionOk run t.claims t.comments t.submission)
    (hstage : StageOk run t.claims t.comments c.body c.stage)
    (hattempt : isAttempt c.stage = true → awaitsAttempt t.submission = true)
    (hothers : ∀ call' c', call' ≠ call → s.calls call' = some c' → isAttempt c'.stage = true →
      isAttempt c.stage = false ∧ awaitsAttempt t.submission = true ∧ t.sent = s.sent)
    (honce : t.sent.length ≤ 1) (hunsent : ∀ attemptId, c.stage = .creating attemptId → t.sent = [])
    (hstart : t.submission = .pending → t.sent = []) : Inv run t := by
  have hcases : ∀ {call' c'}, t.calls call' = some c' → (call' = call ∧ c' = c) ∨ (call' ≠ call ∧ s.calls call' = some c') := by
    intro call' c' h
    rw [hcalls] at h
    by_cases heq : call' = call
    · subst heq
      rw [Function.update_self] at h
      exact .inl ⟨rfl, (Option.some.inj h).symm⟩
    · rw [Function.update_of_ne heq] at h
      exact .inr ⟨heq, h⟩
  refine ⟨hsubmission, ?_, ?_, ?_, honce, ?_, hstart⟩
  · intro call' c' h
    rcases hcases h with ⟨rfl, rfl⟩ | ⟨_, h⟩
    · exact hstage
    · exact StageOk.mono hclaims hcomments (hinv.stages call' c' h)
  · intro call' c' h hatt
    rcases hcases h with ⟨rfl, rfl⟩ | ⟨hne, h⟩
    · exact hattempt hatt
    · exact (hothers call' c' hne h hatt).2.1
  · intro call₁ c₁ call₂ c₂ h₁ h₂ hatt₁ hatt₂
    rcases hcases h₁ with ⟨rfl, rfl⟩ | ⟨hne₁, h₁⟩
    · rcases hcases h₂ with ⟨rfl, rfl⟩ | ⟨hne₂, h₂⟩
      · rfl
      · rw [(hothers _ _ hne₂ h₂ hatt₂).1] at hatt₁
        cases hatt₁
    · rcases hcases h₂ with ⟨rfl, rfl⟩ | ⟨hne₂, h₂⟩
      · rw [(hothers _ _ hne₁ h₁ hatt₁).1] at hatt₂
        cases hatt₂
      · exact hinv.sole _ _ _ _ h₁ h₂ hatt₁ hatt₂
  · intro call' c' attemptId h hcreating
    rcases hcases h with ⟨rfl, rfl⟩ | ⟨hne, h⟩
    · exact hunsent attemptId hcreating
    · rw [(hothers call' c' hne h (by rw [hcreating]; rfl)).2.2]
      exact hinv.unsent call' c' attemptId h hcreating

/-- One call goes on to a calm stage, and nothing else changes. -/
theorem Inv.calm [DecidableEq Call] (hinv : Inv run s) {call : Call} {c : ReplyCall Agent Client Attempt Hash}
    (hcalls : t.calls = Function.update s.calls call (some c)) (hsubmission : t.submission = s.submission)
    (hcomments : t.comments = s.comments) (hclaims : t.claims = s.claims) (hsent : t.sent = s.sent)
    (hcalm : Calm run s.claims s.comments c.body c.stage) : Inv run t := by
  obtain ⟨hstage, hquiet⟩ := hcalm
  refine hinv.move hcalls (.inr hclaims) (by rw [hcomments]; exact fun _ h => h) ?_ ?_ ?_ ?_ ?_ ?_ ?_
  · rw [hsubmission, hcomments, hclaims]
    exact hinv.submission
  · rw [hcomments, hclaims]
    exact hstage
  · rw [hquiet]
    exact nofun
  · intro call' c' _ h hatt
    rw [hsubmission]
    exact ⟨hquiet, hinv.attempt call' c' h hatt, hsent⟩
  · rw [hsent]
    exact hinv.once
  · intro attemptId hcreating
    rw [hcreating] at hquiet
    cases hquiet
  · rw [hsubmission, hsent]
    exact hinv.start

/-- A conditional update leaves the submission or, when its guard holds, writes the next one. -/
theorem conditionalUpdate_cases (current next : Submission Agent Client Attempt Hash) (touches : Bool) (outcome : WriteOutcome) :
    (conditionalUpdate current next touches outcome).1 = current ∨
      (touches = true ∧ (conditionalUpdate current next touches outcome).1 = next) := by
  cases outcome <;> cases touches <;> simp [conditionalUpdate]

/-- A submission that awaits an attempt and has an attempt id is being submitted. -/
theorem eq_submitting {submission : Submission Agent Client Attempt Hash} {attemptId : Attempt}
    (hawaits : awaitsAttempt submission = true) (hattempt : Submission.attemptId submission = some attemptId) :
    ∃ payloadHash publisherClientId, submission = .submitting payloadHash attemptId publisherClientId := by
  cases submission with
  | submitting payloadHash attemptId' publisherClientId =>
    obtain rfl : attemptId' = attemptId := Option.some.inj hattempt
    exact ⟨payloadHash, publisherClientId, rfl⟩
  | submitted => cases hattempt
  | _ => cases hawaits

/-- What the claiming call records is as a submission must be, and a move from one that is being submitted. -/
theorem recordable_spec {claims : List (List Char)} {comments : List GithubIssueComment} {body : List Char}
    {submission next : Submission Agent Client Attempt Hash} {attemptId : Attempt} (hclaims : claims = [body])
    (hsubmission : SubmissionOk run claims comments submission) (hawaits : awaitsAttempt submission = true)
    (hattempt : Submission.attemptId submission = some attemptId) (hnext : Recordable run claims comments body next) :
    SubmissionOk run claims comments next ∧ SubmissionMoves submission next := by
  obtain ⟨payloadHash, publisherClientId, rfl⟩ := eq_submitting hawaits hattempt
  obtain ⟨claimed, hclaimed, hhash⟩ := hsubmission
  obtain rfl : body = claimed := by simpa [hclaimed] using hclaims.symm
  cases next with
  | pending | submitting => exact hnext.elim
  | unknown payloadHash' =>
    obtain rfl : payloadHash' = payloadHash := Eq.trans hnext hhash.symm
    exact ⟨⟨body, hclaims, hhash⟩, .lost _ _ _ _ _⟩
  | failed payloadHash' =>
    obtain rfl : payloadHash' = payloadHash := Eq.trans hnext hhash.symm
    exact ⟨⟨body, hclaims, hhash⟩, .refused _ _ _ _⟩
  | submitted payloadHash' =>
    obtain rfl : payloadHash' = payloadHash := Eq.trans hnext.1 hhash.symm
    exact ⟨⟨⟨body, hclaims, hhash⟩, hnext.2⟩, .submitted _ _ _ _ _ _⟩

/-- A submission that is open moves on to the comment that a reconciliation found. -/
theorem moves_of_isOpen {submission : Submission Agent Client Attempt Hash} {payloadHash : Hash} (response : TaskReplyResponse)
    (agent : Agent) (client : Client) (hhash : Submission.payloadHash submission = some payloadHash)
    (hopen : Submission.isOpen submission = true) : SubmissionMoves submission (.submitted payloadHash response agent client) := by
  cases submission with
  | submitting payloadHash' =>
    obtain rfl : payloadHash' = payloadHash := Option.some.inj hhash
    exact .submitted _ _ _ _ _ _
  | unknown payloadHash' =>
    obtain rfl : payloadHash' = payloadHash := Option.some.inj hhash
    exact .settled _ _ _ _ _ _
  | _ => cases hopen

/-- A run that is not claimed has no attempt. -/
theorem Inv.no_attempt (hinv : Inv run s) (hpending : s.submission = .pending) {call : Call} {c : ReplyCall Agent Client Attempt Hash}
    (hc : s.calls call = some c) : isAttempt c.stage = false := by
  by_contra hatt
  have := hinv.attempt call c hc (by simpa using hatt)
  rw [hpending] at this
  cases this

/-- No other call has an attempt under way while one has. -/
theorem Inv.not_attempt (hinv : Inv run s) {call call' : Call} {c c' : ReplyCall Agent Client Attempt Hash}
    (hc : s.calls call = some c) (hatt : isAttempt c.stage = true) (hne : call' ≠ call) (hc' : s.calls call' = some c') :
    isAttempt c'.stage ≠ true := fun hatt' => hne (hinv.sole _ _ _ _ hc' hc hatt' hatt)

/-- What the invariant says of a state. -/
theorem Inv.publishedOnce (hinv : Inv run s) : PublishedOnce run s := by
  refine ⟨hinv.once, fun body hbody => ?_, fun call c response hc hstage => ?_⟩
  · have hok := hinv.submission
    cases hsubmission : s.submission with
    | pending =>
      rw [hsubmission] at hok
      rw [show s.claims = [] from hok] at hbody
      cases hbody
    | submitted payloadHash =>
      rw [hsubmission] at hok
      obtain ⟨⟨claimed, hclaimed, hhash⟩, _⟩ := hok
      rw [hclaimed] at hbody
      rw [← Option.some.inj hbody, ← hhash]
      rfl
    | submitting payloadHash | unknown payloadHash | failed payloadHash =>
      rw [hsubmission] at hok
      obtain ⟨claimed, hclaimed, hhash⟩ := hok
      rw [hclaimed] at hbody
      rw [← Option.some.inj hbody, ← hhash]
      rfl
  · have hok := hinv.stages call c hc
    rwa [hstage] at hok

variable [DecidableEq Call] [DecidableEq Agent] [DecidableEq Client] [DecidableEq Attempt] [DecidableEq Hash]

omit [DecidableEq Agent] [DecidableEq Client] [DecidableEq Attempt] [DecidableEq Hash] in
/-- A run that is claimed has its first claim. -/
theorem inv_claimed (hinv : Inv run s) (hpending : s.submission = .pending) (call : Call) (c : ReplyCall Agent Client Attempt Hash)
    (attemptId : Attempt) (hcalls : t.calls = Function.update s.calls call (some c))
    (hsubmission : t.submission = .submitting (hashPayload run c.body) attemptId c.callerClientId)
    (hcomments : t.comments = s.comments) (hclaims : t.claims = s.claims ++ [c.body]) (hsent : t.sent = s.sent)
    (hstage : c.stage = .creating attemptId ∨ c.stage = .threw .database) : Inv run t := by
  have hempty : s.claims = [] := by
    have := hinv.submission
    rwa [hpending] at this
  have hclaimed : t.claims = [c.body] := by rw [hclaims, hempty, List.nil_append]
  have hnil : t.sent = [] := hsent.trans (hinv.start hpending)
  refine hinv.move hcalls (.inl hempty) (by rw [hcomments]; exact fun _ h => h) ?_ ?_ ?_ ?_ ?_ ?_ ?_
  · rw [hsubmission]
    exact ⟨c.body, hclaimed, rfl⟩
  · rcases hstage with hstage | hstage
    · rw [hstage]
      exact hclaimed
    · rw [hstage]
      trivial
  · rw [hsubmission]
    exact fun _ => rfl
  · intro call' c' _ hc' hatt
    rw [hinv.no_attempt hpending hc'] at hatt
    cases hatt
  · simp [hnil]
  · exact fun _ _ => hnil
  · exact fun _ => hnil

/-- The update of the second transaction. -/
theorem inv_writeClaim (hinv : Inv run s) {call : Call} {attemptId : Attempt} {outcome : WriteOutcome}
    (h : step run s (.writeClaim call attemptId outcome) = some t) : Inv run t ∧ SubmissionMoves s.submission t.submission := by
  simp only [step, Option.bind_eq_bind, Option.bind_eq_some_iff] at h
  obtain ⟨c, hc, h⟩ := h
  split at h
  · cases h
    by_cases hpending : s.submission = .pending
    · rw [hpending]
      cases outcome with
      | failed =>
        refine ⟨hinv.calm (c := { c with stage := .threw .database }) rfl ?_ rfl ?_ rfl ⟨trivial, rfl⟩, .same _⟩
        · exact hpending.symm
        · simp
      | applied =>
        refine ⟨inv_claimed hinv hpending call { c with stage := .creating attemptId } attemptId ?_ ?_ rfl ?_ rfl (.inl rfl), ?_⟩
        all_goals simp [atStage, setSubmissionIf, conditionalUpdate, claimEnd, hpending]
        exact .claimed _ _ _
      | lost =>
        refine ⟨inv_claimed hinv hpending call { c with stage := .threw .database } attemptId ?_ ?_ rfl ?_ rfl (.inr rfl), ?_⟩
        all_goals simp [atStage, setSubmissionIf, conditionalUpdate, claimEnd, hpending]
        exact .claimed _ _ _
    · -- The guard of the update refuses.
      have hkept : (setSubmissionIf s.submission (.submitting (hashPayload run c.body) attemptId c.callerClientId) outcome).1 =
          s.submission := by
        cases outcome <;> simp [setSubmissionIf, conditionalUpdate, hpending]
      refine ⟨hinv.calm (c := { c with stage := _ }) rfl hkept rfl ?_ rfl ?_, ?_⟩
      · simp [hpending]
      · cases outcome <;> simp [setSubmissionIf, conditionalUpdate, hpending, claimEnd, Calm, StageOk, isAttempt, throws]
      · rw [hkept]
        exact .same _
  · cases h

/-- The comment of the claiming call. -/
theorem inv_create (hinv : Inv run s) {call : Call} {outcome : CreateOutcome} (h : step run s (.create call outcome) = some t) :
    Inv run t ∧ SubmissionMoves s.submission t.submission := by
  simp only [step, Option.bind_eq_bind, Option.bind_eq_some_iff] at h
  obtain ⟨c, hc, h⟩ := h
  split at h
  · rename_i attemptId hstage
    split at h
    · cases h
      refine ⟨?_, .same _⟩
      have hatt : isAttempt c.stage = true := by rw [hstage]; rfl
      have hclaims : s.claims = [c.body] := by
        have := hinv.stages call c hc
        rwa [hstage] at this
      have hawaits := hinv.attempt call c hc hatt
      have hsent := hinv.unsent call c attemptId hc hstage
      obtain ⟨hok, next, result, hnext⟩ := creation_spec run s.comments attemptId hclaims outcome
      refine hinv.move (c := { c with stage := creation run c attemptId outcome }) rfl (.inr rfl) ?_ ?_ hok ?_ ?_ ?_ ?_ ?_
      · exact List.subset_append_left _ _
      · exact SubmissionOk.mono (List.subset_append_left _ _) hinv.submission
      · exact fun _ => hawaits
      · exact fun call' c' hne hc' hatt' => absurd hatt' (hinv.not_attempt hc hatt hne hc')
      · simp [hsent]
      · intro attemptId' hcreating
        simp only [hnext] at hcreating
        cases hcreating
      · intro hpending
        change s.submission = .pending at hpending
        rw [hpending] at hawaits
        cases hawaits
    · cases h
  · cases h

/-- The record of the claiming call. -/
theorem inv_record (hinv : Inv run s) {call : Call} {outcome : WriteOutcome} (h : step run s (.record call outcome) = some t) :
    Inv run t ∧ SubmissionMoves s.submission t.submission := by
  simp only [step, Option.bind_eq_bind, Option.bind_eq_some_iff] at h
  obtain ⟨c, hc, h⟩ := h
  split at h
  · rename_i attemptId next result hstage
    cases h
    have hatt : isAttempt c.stage = true := by rw [hstage]; rfl
    have hawaits := hinv.attempt call c hc hatt
    obtain ⟨hclaims, hnext, hresult⟩ : StageOk run s.claims s.comments c.body (.recording attemptId next result) :=
      hstage ▸ hinv.stages call c hc
    obtain ⟨hend, hquiet⟩ : Calm run s.claims s.comments c.body (recordEnd result
        (setSubmissionForAttempt s.submission attemptId next outcome).2 : ReplyStage Agent Client Attempt Hash) :=
      calm_recordEnd hresult _
    have hwritten : SubmissionOk run s.claims s.comments (setSubmissionForAttempt s.submission attemptId next outcome).1 ∧
        SubmissionMoves s.submission (setSubmissionForAttempt s.submission attemptId next outcome).1 := by
      rcases conditionalUpdate_cases s.submission next _ outcome with hkept | ⟨htouches, hset⟩
      · rw [setSubmissionForAttempt, hkept]
        exact ⟨hinv.submission, .same _⟩
      · rw [setSubmissionForAttempt, hset]
        exact recordable_spec hclaims hinv.submission hawaits (of_decide_eq_true htouches) hnext
    refine ⟨hinv.move (c := { c with stage := _ }) rfl (.inr rfl) (fun _ h => h) hwritten.1 hend ?_ ?_ hinv.once ?_ ?_, hwritten.2⟩
    · rw [hquiet]
      exact nofun
    · exact fun call' c' hne hc' hatt' => absurd hatt' (hinv.not_attempt hc hatt hne hc')
    · intro attemptId' hcreating
      simp only at hcreating
      rw [hcreating] at hquiet
      cases hquiet
    · intro hpending
      have hok := hwritten.1
      change (setSubmissionForAttempt s.submission attemptId next outcome).1 = Submission.pending at hpending
      rw [hpending] at hok
      rw [show s.claims = [] from hok] at hclaims
      cases hclaims
  · cases h

/-- The record of a call that found the comment. -/
theorem inv_settle (hinv : Inv run s) {call : Call} {outcome : WriteOutcome} (h : step run s (.settle call outcome) = some t) :
    Inv run t ∧ SubmissionMoves s.submission t.submission := by
  simp only [step, Option.bind_eq_bind, Option.bind_eq_some_iff] at h
  obtain ⟨c, hc, h⟩ := h
  split at h
  · rename_i payloadHash response publisherClientId hstage
    cases h
    have hok : StageOk run s.claims s.comments c.body
        (.settling payloadHash response publisherClientId : ReplyStage Agent Client Attempt Hash) := hstage ▸ hinv.stages call c hc
    have hquiet : ∀ touched, Calm run s.claims s.comments c.body
        (settleEnd response touched : ReplyStage Agent Client Attempt Hash) := by
      intro touched
      cases touched with
      | none => exact ⟨trivial, rfl⟩
      | some _ => exact ⟨hok.2, rfl⟩
    rcases conditionalUpdate_cases s.submission (.submitted payloadHash response run.agentUuid publisherClientId) _ outcome with
      hkept | ⟨htouches, hset⟩
    · refine ⟨hinv.calm (c := { c with stage := _ }) rfl hkept rfl rfl rfl (hquiet _), ?_⟩
      rw [setSubmissionForPayload, hkept]
      exact .same _
    · simp only [Bool.and_eq_true, decide_eq_true_eq] at htouches
      refine ⟨hinv.move (c := { c with stage := _ }) rfl (.inr rfl) (fun _ h => h) ?_ (hquiet _).1 ?_ ?_ hinv.once ?_ ?_, ?_⟩
      · rw [atStage, setSubmissionForPayload, hset]
        exact hok
      · rw [(hquiet _).2]
        exact nofun
      · intro call' c' _ _ _
        refine ⟨(hquiet _).2, ?_, rfl⟩
        rw [atStage, setSubmissionForPayload, hset]
        rfl
      · intro attemptId' hcreating
        have := (hquiet (setSubmissionForPayload s.submission payloadHash
          (.submitted payloadHash response run.agentUuid publisherClientId) outcome).2).2
        simp only at hcreating
        rw [hcreating] at this
        cases this
      · intro hpending
        rw [atStage, setSubmissionForPayload, hset] at hpending
        cases hpending
      · rw [setSubmissionForPayload, hset]
        exact moves_of_isOpen response run.agentUuid publisherClientId htouches.1 htouches.2
  · cases h

/-- Every action keeps the invariant and moves the submission on. -/
theorem inv_step (hinv : Inv run s) {op : PublisherOp Call Agent Client Attempt} (h : step run s op = some t) :
    Inv run t ∧ SubmissionMoves s.submission t.submission := by
  cases op with
  | submit call agent client body =>
    simp only [step] at h
    split at h
    · cases h
    · cases h
      refine ⟨hinv.calm (c := ⟨agent, client, trimEnd body, _⟩) rfl rfl rfl rfl rfl ?_, .same _⟩
      by_cases haccepts : acceptsBody body = true
      · simp only [haccepts, if_true]
        exact ⟨trivial, rfl⟩
      · simp only [haccepts]
        exact ⟨trivial, rfl⟩
  | inspect call facts authority =>
    simp only [step, Option.bind_eq_bind, Option.bind_eq_some_iff] at h
    obtain ⟨c, hc, h⟩ := h
    split at h
    · cases h
      exact ⟨hinv.calm (c := { c with stage := _ }) rfl rfl rfl rfl rfl (calm_inspection hinv.submission facts authority), .same _⟩
    · cases h
  | prepare call thrown =>
    simp only [step, Option.bind_eq_bind, Option.bind_eq_some_iff] at h
    obtain ⟨c, hc, h⟩ := h
    split at h
    · rename_i reconcile hstage
      cases h
      have hok := hinv.stages call c hc
      rw [hstage] at hok
      exact ⟨hinv.calm (c := { c with stage := _ }) rfl rfl rfl rfl rfl (calm_preparation hok thrown), .same _⟩
    · cases h
  | readClaim call facts authority =>
    simp only [step, Option.bind_eq_bind, Option.bind_eq_some_iff] at h
    obtain ⟨c, hc, h⟩ := h
    split at h
    · cases h
      exact ⟨hinv.calm (c := { c with stage := _ }) rfl rfl rfl rfl rfl (calm_claimDecision hinv.submission facts authority), .same _⟩
    · cases h
  | writeClaim call attemptId outcome => exact inv_writeClaim hinv h
  | create call outcome => exact inv_create hinv h
  | record call outcome => exact inv_record hinv h
  | list call fails =>
    simp only [step, Option.bind_eq_bind, Option.bind_eq_some_iff] at h
    obtain ⟨c, hc, h⟩ := h
    split at h
    · rename_i payloadHash publisherClientId hstage
      cases h
      have hok := hinv.stages call c hc
      rw [hstage] at hok
      exact ⟨hinv.calm (c := { c with stage := _ }) rfl rfl rfl rfl rfl (calm_reconciliation publisherClientId hok fails), .same _⟩
    · cases h
  | settle call outcome => exact inv_settle hinv h
  | crash call =>
    simp only [step, Option.bind_eq_bind, Option.bind_eq_some_iff] at h
    obtain ⟨c, hc, h⟩ := h
    cases h
    exact ⟨hinv.calm (c := { c with stage := .crashed }) rfl rfl rfl rfl rfl ⟨trivial, rfl⟩, .same _⟩
  | othersComment comment =>
    simp only [step] at h
    split at h
    · cases h
      refine ⟨⟨?_, ?_, hinv.attempt, hinv.sole, hinv.once, hinv.unsent, hinv.start⟩, .same _⟩
      · exact SubmissionOk.mono (List.subset_append_left _ _) hinv.submission
      · exact fun call c hc => StageOk.mono (.inr rfl) (List.subset_append_left _ _) (hinv.stages call c hc)
    · cases h

omit [DecidableEq Call] [DecidableEq Agent] [DecidableEq Client] [DecidableEq Attempt] [DecidableEq Hash] in
/-- The invariant holds at the start. -/
theorem inv_init (run : TaskReplyRun Agent Hash) : Inv run (init : Publisher Call Agent Client Attempt Hash) :=
  ⟨rfl, nofun, nofun, nofun, Nat.zero_le 1, nofun, fun _ => rfl⟩

/-- The invariant holds along every run. -/
theorem inv_run {ops : List (PublisherOp Call Agent Client Attempt)} (hrun : Run (ofPartial (step run)) init ops s) : Inv run s :=
  hrun.invariant (fun _ _ _ hinv h => (inv_step hinv h).1) (inv_init run)

/-! ## What a run says -/

omit [DecidableEq Agent] [DecidableEq Client] [DecidableEq Attempt] [DecidableEq Hash] in
/-- A move keeps the hash and what is final. -/
theorem moves_spec {submission submission' : Submission Agent Client Attempt Hash} (h : SubmissionMoves submission submission') :
    (∀ payloadHash, Submission.payloadHash submission = some payloadHash → Submission.payloadHash submission' = some payloadHash) ∧
      (IsFinal submission → submission' = submission) := by
  cases h with
  | same => exact ⟨fun _ h => h, fun _ => rfl⟩
  | claimed => exact ⟨nofun, fun h => h.elim⟩
  | _ => exact ⟨fun _ h => h, fun h => h.elim⟩

/-- Along a run the hash and what is final stay. -/
theorem run_keeps (hinv : Inv run s) {ops : List (PublisherOp Call Agent Client Attempt)}
    (hrun : Run (ofPartial (step run)) s ops t) : (∀ payloadHash, Submission.payloadHash s.submission = some payloadHash →
      Submission.payloadHash t.submission = some payloadHash) ∧ (IsFinal s.submission → t.submission = s.submission) := by
  have hreached : Inv run t ∧ (∀ payloadHash, Submission.payloadHash s.submission = some payloadHash →
      Submission.payloadHash t.submission = some payloadHash) ∧ (IsFinal s.submission → t.submission = s.submission) := by
    refine hrun.invariant (P := fun u => Inv run u ∧ (∀ payloadHash, Submission.payloadHash s.submission = some payloadHash →
      Submission.payloadHash u.submission = some payloadHash) ∧ (IsFinal s.submission → u.submission = s.submission)) ?_
      ⟨hinv, fun _ h => h, fun _ => rfl⟩
    rintro u op u' ⟨hu, hhash, hfinal⟩ hstep
    obtain ⟨hu', hmoves⟩ := inv_step hu hstep
    obtain ⟨hkeeps, hstays⟩ := moves_spec hmoves
    refine ⟨hu', fun payloadHash h => hkeeps payloadHash (hhash payloadHash h), fun h => ?_⟩
    have heq := hfinal h
    exact (hstays (by rw [heq]; exact h)).trans heq
  exact hreached.2

end Steps

end TaskReplyPublisherAux

open TaskReplyPublisherAux

/-- In every run at most one comment is sent; the submission only moves on, with the hash of the body claimed first, and stays
once it is submitted or failed; and every call that returns names a comment with the reply of that body. -/
theorem task_reply_published_once [DecidableEq Call] [DecidableEq Agent] [DecidableEq Client] [DecidableEq Attempt] [DecidableEq Hash]
    (run : TaskReplyRun Agent Hash) :
    AlwaysPublishedOnce run (ofPartial (step run) : Publisher Call Agent Client Attempt Hash → _) := by
  intro ops s hrun
  have hinv := inv_run hrun
  exact ⟨hinv.publishedOnce, fun op t h => (inv_step hinv h).2, fun ops' t hrun' => run_keeps hinv hrun'⟩

/-- A run for the example: payloads are their own hashes. -/
def exampleRun : TaskReplyRun Nat (List Char × TaskEntityType × Nat × List Char) :=
  ⟨['r'], "o/r".toList, .issue, 1, 0, "app".toList, fun _ => false, id, Function.injective_id⟩

/-- The calls 0 and 1 both prepare, call 0 claims and crashes after its comment, and call 1 finds it. -/
example :
    (([.submit 0 0 5 ['h', 'i'], .submit 1 0 6 ['h', 'i', ' '], .inspect 0 none none, .inspect 1 none none, .prepare 0 none,
        .prepare 1 none, .readClaim 0 none none, .writeClaim 0 9 .applied,
        .create 0 (.error none (some ⟨3, [], "app[bot]".toList, replyBody ['h', 'i'] ['r']⟩)), .crash 0, .readClaim 1 none none,
        .list 1 false, .settle 1 .applied] : List (PublisherOp Nat Nat Nat Nat)).foldlM (step exampleRun) init).map
      (fun s => (s.sent.length, (s.calls 1).map (·.stage))) = some (1, some (.returned ⟨3, [], "app[bot]".toList⟩)) := by
  rfl

end FirstTree
