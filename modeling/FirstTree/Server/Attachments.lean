import FirstTree.Lib.LockedPrograms
import FirstTree.Lib.Scripts
import FirstTree.Server.MessagePreflight

/-!
# Attachments

The object storage of `attachment.ts` as scripts of transactions: uploads, copies, the deletion of unreferenced rows and the two
sweeps, next to the transactions that bind a Skill resource to a bundle and to the sends and edits of messages with attachment
references. The bytes of a body come with the call, as do the moments of the clock and the identifiers a call generates; what an
external blob store answers comes with the call as well, or may fail.
-/

namespace FirstTree

open Transactions Scripts

/-- `AttachmentLifecycleState`. -/
inductive AttachmentLifecycleState where
  | uploading | ready | deleting
  deriving DecidableEq

/-- A row of `attachments`. -/
structure AttachmentRow where
  organizationId : Option String
  objectKey : Option String
  lifecycleState : AttachmentLifecycleState
  mimeType : String
  filename : String
  sizeBytes : Nat
  data : Option (List UInt8)
  uploadedBy : String
  createdAt : Int
  updatedAt : Int
  deriving DecidableEq

/-- What a row of `resources` says of its bundle. -/
structure BundleResource where
  organizationId : String
  bundleAttachmentId : Option String
  deriving DecidableEq

/-- The attachments a message refers to, in its content and in `metadata.attachments`. -/
structure MessageRefs where
  content : List String
  attachments : List String

/-- The committed rows. The bundles that official templates hold stay as they are. -/
structure AttachmentStore where
  attachments : Rows String AttachmentRow
  resources : Rows String BundleResource
  templates : List String
  messages : Rows String MessageRefs

/-- The modes of a row lock the statements take: `FOR KEY SHARE`, an update that keeps the key, and `FOR UPDATE` or a deletion. -/
inductive RowLock where
  | keyShare | noKeyUpdate | update
  deriving DecidableEq

/-- The advisory lock of an organization's quota, the locks of the rows of `attachments`, and those of a written row of `resources` or
`messages`. -/
inductive AttachmentLock where
  | organizationQuota (organizationId : String)
  | row (mode : RowLock) (id : String)
  | resource (id : String)
  | message (id : String)
  deriving DecidableEq

/-- Two modes that two transactions cannot hold on one row. -/
def RowLock.conflicts : RowLock → RowLock → Bool
  | .keyShare, .keyShare | .keyShare, .noKeyUpdate | .noKeyUpdate, .keyShare => false
  | _, _ => true

/-- Two locks that two transactions cannot hold at once. -/
def AttachmentLock.conflicts : AttachmentLock → AttachmentLock → Bool
  | .organizationQuota a, .organizationQuota b => decide (a = b)
  | .row mode a, .row mode' b => decide (a = b) && mode.conflicts mode'
  | .resource a, .resource b => decide (a = b)
  | .message a, .message b => decide (a = b)
  | _, _ => false

/-- What a call fails with. -/
inductive AttachmentError where
  | badRequest (message : String)
  | conflict (message : String)
  | notFound (message : String)
  | unexpected (message : String)
  | aggregate (message : String)
  | database

/-- A script on the attachments. -/
abbrev AttachmentScript (α : Type) := Script AttachmentStore AttachmentLock AttachmentError α

/-- The bytes of a body as they arrive, and what breaks it off after them. -/
structure Body where
  chunks : List (List UInt8)
  failure : Option AttachmentError

/-- `CreateAttachmentInput`, with the identifier given or generated. -/
structure CreateAttachmentInput where
  id : String
  organizationId : String
  mimeType : String
  filename : String
  body : Body
  contentLength : Option Int
  uploadedBy : String

/-- A copy of a template's bundle: the identifier generated for it, and what the blob store answers for a row without bytes. -/
structure BundleCopy where
  sourceId : String
  id : String
  legacyBody : Body

/-- What `validateMessageAttachmentRefs` reads of an `AttachmentRef`. -/
structure MessageAttachmentRef where
  attachmentId : String
  mimeType : String
  size : Nat

namespace Attachments

/-- `MAX_ATTACHMENT_BYTES`. -/
def maxAttachmentBytes : Nat := 10 * 1024 * 1024

/-- `MAX_ORGANIZATION_ATTACHMENT_BYTES`. -/
def maxOrganizationAttachmentBytes : Nat := 2 * 1024 * 1024 * 1024

/-- `MAX_CONCURRENT_ATTACHMENT_UPLOADS_PER_CALLER`. -/
def maxConcurrentAttachmentUploadsPerCaller : Nat := 3

/-- `ORPHAN_ATTACHMENT_AGE_MS`. -/
def orphanAttachmentAgeMs : Int := 24 * 60 * 60 * 1000

/-- `MESSAGE_ATTACHMENT_RETENTION_MS`, of fourteen days. -/
def messageAttachmentRetentionMs : Int := 14 * 24 * 60 * 60 * 1000

/-- `MAX_MESSAGE_ATTACHMENT_REFS`. -/
def maxMessageAttachmentRefs : Nat := 10

/-- `Number.MAX_SAFE_INTEGER`. -/
def maxSafeInteger : Int := 9007199254740991

/-- A text that a condition of the source takes for one. -/
def truthy (text : Option String) : Option String := text.filter fun t => decide (t ≠ "")

/-! ## Statements on the rows -/

/-- The store with a row of `attachments`. -/
def setAttachment (id : String) (row : AttachmentRow) (s : AttachmentStore) : AttachmentStore :=
  { s with attachments := s.attachments.insert id row }

/-- The store without a row of `attachments`. -/
def dropAttachment (id : String) (s : AttachmentStore) : AttachmentStore :=
  { s with attachments := s.attachments.erase id }

/-- The row of an identifier, when it meets a condition. -/
def attachmentWhere (id : String) (condition : AttachmentRow → Bool) (s : AttachmentStore) : Option AttachmentRow :=
  (s.attachments.lookup id).filter condition

/-- The lock of a row that a statement has found. -/
def lockFound (mode : RowLock) (id : String) : Option AttachmentRow → List AttachmentLock
  | some _ => [.row mode id]
  | none => []

/-- A select of one row with a lock. -/
def selectFor (mode : RowLock) (id : String) (condition : AttachmentRow → Bool) : AttachmentScript (Option AttachmentRow) :=
  Script.lockAndRead (fun view => lockFound mode id (attachmentWhere id condition view)) (attachmentWhere id condition)

/-- An update of one row, with the row it leaves. -/
def updateAttachment (id : String) (condition : AttachmentRow → Bool) (change : AttachmentRow → AttachmentRow) :
    AttachmentScript (Option AttachmentRow) :=
  Script.exec (fun view => lockFound .noKeyUpdate id (attachmentWhere id condition view))
    (fun view store => match attachmentWhere id condition view with
      | some row => setAttachment id (change row) store
      | none => store)
    fun view => (attachmentWhere id condition view).map change

/-- A deletion of one row. -/
def deleteAttachment (id : String) (condition : AttachmentRow → Bool) : AttachmentScript Unit :=
  Script.exec (fun view => lockFound .update id (attachmentWhere id condition view))
    (fun view store => match attachmentWhere id condition view with
      | some _ => dropAttachment id store
      | none => store)
    fun _ => ()

/-- An insertion of one row. It waits for a transaction that has written the row of its key. -/
def insertAttachment (id : String) (row : AttachmentRow) : AttachmentScript Unit := do
  let found ← Script.exec (fun _ => [.row .update id])
    (fun view store => match attachmentWhere id (fun _ => true) view with
      | some _ => store
      | none => setAttachment id row store)
    (attachmentWhere id fun _ => true)
  Script.check (if found.isSome then .error .database else .ok ())

/-! ## The quota -/

/-- `lockOrganizationAttachmentQuota`. Organizations whose hashes are the same have one lock, which orders them more than this
does. -/
def lockOrganizationAttachmentQuota (organizationId : String) : AttachmentScript Unit :=
  Script.lockAndRead (fun _ => [.organizationQuota organizationId]) fun _ => ()

/-- The uploads of a caller in progress. -/
def activeUploads (organizationId uploadedBy : String) (s : AttachmentStore) : Nat :=
  (s.attachments.entries.filter fun e => decide (e.2.organizationId = some organizationId ∧ e.2.uploadedBy = uploadedBy ∧
    e.2.lifecycleState = .uploading)).length

/-- `assertCallerUploadConcurrency`. -/
def assertCallerUploadConcurrency (organizationId uploadedBy : String) : AttachmentScript Unit := do
  let activeCount ← Script.read (activeUploads organizationId uploadedBy)
  Script.check (if activeCount ≥ maxConcurrentAttachmentUploadsPerCaller then
    .error (.conflict s!"Caller already has {maxConcurrentAttachmentUploadsPerCaller} attachment uploads in progress") else .ok ())

/-- The objects of an organization and their bytes. -/
structure Usage where
  objectCount : Nat
  sizeBytes : Nat

/-- The usage that `assertOrganizationQuota` selects. -/
def organizationUsage (organizationId : String) (excludeId : Option String) (s : AttachmentStore) : Usage :=
  let rows := s.attachments.entries.filter fun e => decide (e.2.organizationId = some organizationId ∧
    e.2.lifecycleState ∈ [AttachmentLifecycleState.uploading, .ready, .deleting] ∧ some e.1 ≠ truthy excludeId)
  { objectCount := rows.length, sizeBytes := (rows.map fun e => e.2.sizeBytes).sum }

/-- What `assertOrganizationQuota` does with the usage. -/
def checkUsage (quota additionalObjects additionalBytes : Nat) (usage : Usage) : Except AttachmentError Unit :=
  if usage.objectCount + additionalObjects > quota then
    .error (.badRequest s!"Organization attachment quota of {quota} objects exceeded")
  else if usage.sizeBytes + additionalBytes > maxOrganizationAttachmentBytes then
    .error (.badRequest s!"Organization attachment quota of {maxOrganizationAttachmentBytes} bytes exceeded")
  else .ok ()

/-- `assertOrganizationQuota`. -/
def assertOrganizationQuota (quota : Nat) (organizationId : String) (excludeId : Option String)
    (additionalObjects additionalBytes : Nat) : AttachmentScript Unit := do
  let usage ← Script.read (organizationUsage organizationId excludeId)
  Script.check (checkUsage quota additionalObjects additionalBytes usage)

/-! ## Uploads -/

/-- `validateCreateInput`. -/
def validateCreateInput (input : CreateAttachmentInput) : Except AttachmentError Unit :=
  if MessagePreflight.trim input.organizationId = "" then .error (.badRequest "Attachment organization is required")
  else if MessagePreflight.trim input.mimeType = "" then .error (.badRequest "Attachment mime type is required")
  else if MessagePreflight.trim input.filename = "" then .error (.badRequest "Attachment filename is required")
  else match input.contentLength with
    | none => .ok ()
    | some contentLength =>
      if maxSafeInteger < contentLength ∨ contentLength ≤ 0 then
        .error (.badRequest "Attachment Content-Length must be a positive integer")
      else if contentLength > maxAttachmentBytes then
        .error (.badRequest s!"Attachment exceeds maximum size of {maxAttachmentBytes} bytes")
      else .ok ()

/-- The loop of `readAttachmentBody`. -/
def readChunks : List (List UInt8) → List UInt8 → Except AttachmentError (List UInt8)
  | [], bytes => .ok bytes
  | chunk :: chunks, bytes =>
    if (bytes ++ chunk).length > maxAttachmentBytes then
      .error (.badRequest s!"Attachment exceeds maximum size of {maxAttachmentBytes} bytes")
    else readChunks chunks (bytes ++ chunk)

/-- `readAttachmentBody`. -/
def readAttachmentBody (body : Body) (contentLength : Option Int) : Except AttachmentError (List UInt8) := do
  let bytes ← readChunks body.chunks []
  match body.failure with
  | some e => .error e
  | none =>
    if bytes.length = 0 then .error (.badRequest "Attachment is empty")
    else if contentLength ≠ none ∧ contentLength ≠ some (bytes.length : Int) then
      .error (.badRequest "Attachment Content-Length does not match the uploaded bytes")
    else .ok bytes

/-- A row is uploading. -/
def isUploading (row : AttachmentRow) : Bool := decide (row.lifecycleState = .uploading)

/-- What follows a failed upload: its reservation is deleted, and the error goes on. -/
def abandonReservation {α : Type} (id message : String) (error : AttachmentError) : AttachmentScript α := do
  tryCatch (Script.transaction (do
    deleteAttachment id isUploading
    Script.mayFail .database)) fun _ => throw (.aggregate message)
  throw error

/-- `createAttachment`. -/
def createAttachment (quota : Nat) (now : Int) (input : CreateAttachmentInput) : AttachmentScript AttachmentRow := do
  Script.check (validateCreateInput input)
  let reservedBytes := (input.contentLength.map Int.toNat).getD maxAttachmentBytes
  Script.transaction (do
    lockOrganizationAttachmentQuota input.organizationId
    assertCallerUploadConcurrency input.organizationId input.uploadedBy
    assertOrganizationQuota quota input.organizationId none 1 reservedBytes
    insertAttachment input.id
      { organizationId := some input.organizationId, objectKey := none, lifecycleState := .uploading
        mimeType := MessagePreflight.trim input.mimeType, filename := MessagePreflight.trim input.filename
        sizeBytes := reservedBytes, data := none, uploadedBy := input.uploadedBy, createdAt := now, updatedAt := now })
  let bytes ← tryCatch (Script.check (readAttachmentBody input.body input.contentLength))
    (abandonReservation input.id "Attachment upload and reservation cleanup both failed")
  tryCatch (Script.transaction (do
      lockOrganizationAttachmentQuota input.organizationId
      assertOrganizationQuota quota input.organizationId (some input.id) 1 bytes.length
      let row ← updateAttachment input.id isUploading fun row =>
        { row with data := some bytes, lifecycleState := .ready, sizeBytes := bytes.length, updatedAt := now }
      Script.mayFail .database
      Script.check (match row with
        | some row => .ok row
        | none => .error (.unexpected "Attachment reservation disappeared before PostgreSQL publish"))))
    (abandonReservation input.id "Attachment publish and reservation cleanup both failed")

/-! ## Copies -/

/-- A row is ready and has bytes here or in the blob store. -/
def isAvailable (row : AttachmentRow) : Bool :=
  decide (row.lifecycleState = .ready) && (row.data.isSome || row.objectKey.isSome)

/-- The bytes of the source of a copy. -/
def sourceBytes (source : AttachmentRow) (legacyBody : Body) : Except AttachmentError (List UInt8) :=
  match source.data with
  | some data =>
    if data.length ≠ source.sizeBytes
      then .error (.badRequest "Source attachment byte length does not match its metadata") else .ok data
  | none =>
    if (truthy source.objectKey).isSome then readAttachmentBody legacyBody (some source.sizeBytes)
    else .error (.badRequest "Source attachment bytes are unavailable")

/-- What a copy reads of its source. -/
def checkSource (source : Option AttachmentRow) (legacyBody : Body) : Except AttachmentError (AttachmentRow × List UInt8) :=
  match source.filter isAvailable with
  | none => .error (.badRequest "Source attachment is not a ready attachment with available bytes")
  | some source => (sourceBytes source legacyBody).map fun bytes => (source, bytes)

/-- `copyAttachmentForOrganization`, in a transaction of its caller. -/
def copyAttachmentForOrganization (quota : Nat) (now : Int) (copy : BundleCopy) (targetOrganizationId uploadedBy : String) :
    AttachmentScript Unit := do
  lockOrganizationAttachmentQuota targetOrganizationId
  let found ← selectFor .update copy.sourceId fun _ => true
  let (source, bytes) ← Script.check (checkSource found copy.legacyBody)
  assertOrganizationQuota quota targetOrganizationId none 1 bytes.length
  insertAttachment copy.id
    { organizationId := some targetOrganizationId, objectKey := none, lifecycleState := .ready
      mimeType := source.mimeType, filename := source.filename, sizeBytes := bytes.length, data := some bytes
      uploadedBy := uploadedBy, createdAt := now, updatedAt := now }

/-! ## Bundles of resources -/

/-- An insertion into `resources`. -/
def insertResource (id : String) (row : BundleResource) : AttachmentScript Unit := do
  let found ← Script.exec (fun _ => [.resource id])
    (fun view store => match view.resources.lookup id with
      | some _ => store
      | none => { store with resources := store.resources.insert id row })
    fun view => view.resources.lookup id
  Script.check (if found.isSome then .error (.conflict "A matching resource already exists") else .ok ())

/-- The import of the Skill components of a template: one resource for each, bound to the copy of its bundle. -/
def importTemplateComponents (organizationId : String) (bundleTargetBySourceId : List (String × String))
    (component : String × String) : AttachmentScript Unit := do
  let target ← Script.check (match bundleTargetBySourceId.lookup component.2 with
    | some target => .ok target
    | none => .error (.unexpected s!"Missing copied bundle for source attachment \"{component.2}\""))
  insertResource component.1 { organizationId := organizationId, bundleAttachmentId := some target }

/-- The copies and the imports of an adoption of templates, in the order of the source. -/
def adoptTemplates (quota : Nat) (now : Int) (organizationId uploadedBy : String) (copies : List BundleCopy)
    (components : List (String × String)) : AttachmentScript Unit :=
  Script.transaction (do
    Script.forEach (fun copy => copyAttachmentForOrganization quota now copy organizationId uploadedBy) copies
    Script.forEach (importTemplateComponents organizationId (copies.map fun copy => (copy.sourceId, copy.id))) components
    Script.mayFail .database)

/-- `lockReadySkillBundle`. -/
def lockReadySkillBundle (organizationId attachmentId : String) : AttachmentScript Unit := do
  let row ← selectFor .update attachmentId fun row =>
    decide (row.organizationId = some organizationId ∧ row.lifecycleState = .ready)
  Script.check (if row.isSome then .ok ()
    else .error (.badRequest "Skill bundle attachment must be a ready attachment owned by this organization"))

/-- `createTeamResource` of a Skill whose bundle is valid. It may find its name taken. -/
def createTeamResource (resourceId organizationId bundleAttachmentId : String) : AttachmentScript Unit :=
  Script.transaction (do
    lockReadySkillBundle organizationId bundleAttachmentId
    Script.mayFail (.conflict "A matching resource already exists")
    insertResource resourceId { organizationId := organizationId, bundleAttachmentId := some bundleAttachmentId })

/-! ## References -/

/-- A resource holds the attachment as its bundle. -/
def resourceReferences (id : String) (s : AttachmentStore) : Bool :=
  s.resources.entries.any fun e => decide (e.2.bundleAttachmentId = some id)

/-- A message refers to the attachment. -/
def messageReferences (id : String) (s : AttachmentStore) : Bool :=
  s.messages.entries.any fun e => decide (id ∈ e.2.content ∨ id ∈ e.2.attachments)

/-- `isAttachmentProtectedByBundleReference`. -/
def isAttachmentProtectedByBundleReference (id : String) : AttachmentScript Bool := do
  let resourceRef ← Script.read (resourceReferences id)
  if resourceRef then pure true else Script.read fun s => decide (id ∈ s.templates)

/-- `isAttachmentReferencedByMessage`. -/
def isAttachmentReferencedByMessage (id : String) : AttachmentScript Bool :=
  Script.read (messageReferences id)

/-- `isAttachmentReferenced`. -/
def isAttachmentReferenced (id : String) : AttachmentScript Bool := do
  let isProtected ← isAttachmentProtectedByBundleReference id
  if isProtected then pure true else isAttachmentReferencedByMessage id

/-- `loadAttachmentMetaForReference`. -/
def loadAttachmentMetaForReference (id : String) : AttachmentScript (Option AttachmentRow) :=
  selectFor .keyShare id isAvailable

/-- What `validateMessageAttachmentRefs` makes of one reference and its row. -/
def checkRef (ref : MessageAttachmentRef) : Option AttachmentRow → Except AttachmentError Unit
  | none => .error (.badRequest "Attachment reference points at a non-existent attachment")
  | some row =>
    if row.mimeType ≠ ref.mimeType then
      .error (.badRequest "Attachment reference mimeType does not match the stored attachment")
    else if row.sizeBytes ≠ ref.size then .error (.badRequest "Attachment reference size does not match the stored attachment")
    else .ok ()

/-- The rows of the references, one after another. -/
def loadRefs : List MessageAttachmentRef → AttachmentScript (List (MessageAttachmentRef × Option AttachmentRow))
  | [] => pure []
  | ref :: refs => do
    let row ← loadAttachmentMetaForReference ref.attachmentId
    let rows ← loadRefs refs
    pure ((ref, row) :: rows)

/-- `validateMessageAttachmentRefs`. -/
def validateMessageAttachmentRefs (refs : List MessageAttachmentRef) : AttachmentScript Unit := do
  Script.check (if refs.length > maxMessageAttachmentRefs then
    .error (.badRequest "Too many attachment references on a single message") else .ok ())
  let rows ← loadRefs refs
  Script.check (rows.forM fun row => checkRef row.1 row.2)

/-- `lockFileAttachmentRefsIfPresent`, on the references of a file message. -/
def lockFileAttachmentRefsIfPresent (ids : List String) : AttachmentScript Unit :=
  Script.forEach (fun id => do let _ ← loadAttachmentMetaForReference id; pure ()) ids

/-- What a send does with its attachment references, and its message. -/
def sendMessage (messageId : String) (content : List String) (refs : List MessageAttachmentRef) : AttachmentScript Unit :=
  Script.transaction (do
    validateMessageAttachmentRefs refs
    lockFileAttachmentRefsIfPresent content
    let found ← Script.exec (fun _ => [.message messageId])
      (fun view store => match view.messages.lookup messageId with
        | some _ => store
        | none => { store with messages := store.messages.insert messageId ⟨content, refs.map fun ref => ref.attachmentId⟩ })
      fun view => view.messages.lookup messageId
    Script.check (if found.isSome then .error .database else .ok ())
    Script.mayFail .database)

/-! ## Deletions -/

/-- An orphan sweep leaves the row alone. -/
def tooYoung (orphanCutoff : Option Int) (row : AttachmentRow) : Bool :=
  match orphanCutoff with
  | none => false
  | some cutoff => decide (row.lifecycleState ≠ .deleting) &&
      !(decide (row.lifecycleState = .uploading ∨ row.lifecycleState = .ready) && decide (row.updatedAt < cutoff))

/-- A row is to be deleted. -/
def isDeleting (row : AttachmentRow) : Bool := decide (row.lifecycleState = .deleting)

/-- What the two deletions make of a row that nothing holds: it is marked while the blob store has its bytes, and deleted
otherwise. -/
def releaseRow (id : String) (now : Int) (row : AttachmentRow) : AttachmentScript (Option (Option String)) :=
  match truthy row.objectKey with
  | some key => do
    let _ ← updateAttachment id (fun _ => true) fun row => { row with lifecycleState := .deleting, updatedAt := now }
    pure (some (some key))
  | none => do
    deleteAttachment id fun _ => true
    pure (some none)

/-- What the two deletions do after their first transaction, by the key of the blob. -/
def deleteBlob (id : String) : Option (Option String) → AttachmentScript Bool
  | none => pure false
  | some none => pure true
  | some (some _) => do
    Script.mayFail .database
    Script.transaction (deleteAttachment id isDeleting)
    pure true

/-- The first transaction of `deleteAttachmentIfUnreferenced`. -/
def claimUnreferenced (id : String) (orphanCutoff : Option Int) (now : Int) : AttachmentScript (Option (Option String)) := do
  let found ← selectFor .update id fun _ => true
  match found with
  | none => pure none
  | some row =>
    if tooYoung orphanCutoff row then pure none
    else do
      let referenced ← isAttachmentReferenced id
      if referenced then
        if row.lifecycleState ≠ .deleting then do
          let _ ← updateAttachment id (fun _ => true) fun row => { row with updatedAt := now }
          pure none
        else pure none
      else releaseRow id now row

/-- `deleteAttachmentIfUnreferenced`. -/
def deleteAttachmentIfUnreferenced (now : Int) (orphanCutoff : Option Int) (id : String) : AttachmentScript Bool := do
  let claimed ← Script.transaction (claimUnreferenced id orphanCutoff now)
  deleteBlob id claimed

/-- A cleanup of a list of rows that goes on after an error. -/
def cleanUpEach (delete : String → AttachmentScript Bool) (ids : List String) : AttachmentScript Unit :=
  Script.forEach (fun id => tryCatch (do let _ ← delete id; pure ()) fun _ => pure ()) ids

/-- `sweepOrphanAttachments`. The database returns the rows in any order. -/
def sweepOrphanAttachments (now : Int) (batchSize : Nat) (order : List String → List String) : AttachmentScript Unit := do
  let cutoff := now - orphanAttachmentAgeMs
  let candidates ← Script.transaction (Script.read fun s => (order ((s.attachments.entries.filter fun e =>
    decide (e.2.lifecycleState = .deleting) || (decide (e.2.lifecycleState ∈ [AttachmentLifecycleState.uploading, .ready]) &&
      decide (e.2.updatedAt < cutoff))).map (·.1))).take batchSize)
  cleanUpEach (deleteAttachmentIfUnreferenced now (some cutoff)) candidates

/-- The first transaction of `deleteExpiredAttachmentIfUnprotected`. -/
def claimExpired (id : String) (now : Int) : AttachmentScript (Option (Option String)) := do
  let found ← selectFor .update id fun _ => true
  match found with
  | none => pure none
  | some row =>
    if row.lifecycleState ≠ .ready then pure none
    else do
      let isProtected ← isAttachmentProtectedByBundleReference id
      if isProtected then pure none
      else do
        let referenced ← isAttachmentReferencedByMessage id
        if referenced then releaseRow id now row else pure none

/-- `deleteExpiredAttachmentIfUnprotected`. -/
def deleteExpiredAttachmentIfUnprotected (now : Int) (id : String) : AttachmentScript Bool := do
  let claimed ← Script.transaction (claimExpired id now)
  deleteBlob id claimed

/-- `retentionEligibleConditions`. -/
def retentionEligible (cutoff : Int) (s : AttachmentStore) (id : String) (row : AttachmentRow) : Bool :=
  decide (row.lifecycleState = .ready) && decide (row.createdAt < cutoff) && messageReferences id s && !resourceReferences id s &&
    decide (id ∉ s.templates)

/-- The loop of `sweepExpiredMessageAttachments`, by the batches left. -/
def retentionBatches (now cutoff : Int) (batchSize : Nat) (order : List String → List String) : Nat → AttachmentScript Unit
  | 0 => pure ()
  | batches + 1 => do
    let candidates ← Script.transaction (Script.read fun s =>
      (order ((s.attachments.entries.filter fun e => retentionEligible cutoff s e.1 e.2).map (·.1))).take batchSize)
    if candidates.isEmpty then pure ()
    else do
      cleanUpEach (deleteExpiredAttachmentIfUnprotected now) candidates
      retentionBatches now cutoff batchSize order batches

/-- `sweepExpiredMessageAttachments`. The order is that of `createdAt`, and any among equals. -/
def sweepExpiredMessageAttachments (deleteEnabled : Bool) (now : Int) (batchSize maxBatches : Nat)
    (order : List String → List String) : AttachmentScript Unit :=
  if deleteEnabled then retentionBatches now (now - messageAttachmentRetentionMs) batchSize order maxBatches else pure ()

/-! ## The legacy blob store -/

/-- One row of `backfillExternalAttachmentsToPostgres`, with what the blob store answers. -/
def backfillRow (now : Int) (bodyOf : String → Body) (candidate : String × Option String × Nat) : AttachmentScript Unit :=
  match truthy candidate.2.1 with
  | none => pure ()
  | some objectKey => tryCatch (do
      let bytes ← Script.check (readAttachmentBody (bodyOf objectKey) (some candidate.2.2))
      let _ ← Script.transaction (updateAttachment candidate.1
        (fun row => decide (row.lifecycleState = .ready ∧ row.objectKey = some objectKey) && row.data.isNone)
        fun row => { row with data := some bytes, updatedAt := now })
      pure ()) fun _ => pure ()

/-- `backfillExternalAttachmentsToPostgres`. -/
def backfillExternalAttachmentsToPostgres (now : Int) (batchSize : Nat) (bodyOf : String → Body) : AttachmentScript Unit := do
  let rows ← Script.transaction (Script.read fun s => ((s.attachments.entries.filter fun e =>
    decide (e.2.lifecycleState = .ready) && e.2.data.isNone && e.2.objectKey.isSome).map fun e =>
      (e.1, e.2.objectKey, e.2.sizeBytes)).take batchSize)
  Script.forEach (backfillRow now bodyOf) rows

/-! ## Releases -/

/-- The release of the bundle that another replaces, or none. -/
def releaseReplacedBundle (now : Int) (previous bundleAttachmentId : Option String) : AttachmentScript Unit :=
  match (truthy previous).filter fun old => decide (some old ≠ bundleAttachmentId) with
  | some old => tryCatch (do let _ ← deleteAttachmentIfUnreferenced now none old; pure ()) fun _ => pure ()
  | none => pure ()

/-- What `updateResource` locks of a new bundle. -/
def lockNewBundle (organizationId : String) (bundleAttachmentId : Option String) : AttachmentScript Unit :=
  match bundleAttachmentId with
  | some id => lockReadySkillBundle organizationId id
  | none => pure ()

/-- `updateResource` of a Skill, with a new bundle that is valid or without one. Without one it writes the bundle back that it has
read before, which no lock protects. The bundle that another replaces is released after the commit. -/
def updateResource (now : Int) (resourceId : String) (bundleAttachmentId : Option String) : AttachmentScript Unit := do
  let found ← Script.transaction (Script.read fun s => s.resources.lookup resourceId)
  match found with
  | none => throw (.notFound s!"Resource \"{resourceId}\" not found")
  | some current => do
    let bundle := bundleAttachmentId <|> current.bundleAttachmentId
    Script.transaction (do
      lockNewBundle current.organizationId bundleAttachmentId
      Script.mayFail (.conflict "A matching resource already exists")
      Script.exec (fun _ => [.resource resourceId])
        (fun view store => match view.resources.lookup resourceId with
          | some row => { store with resources := store.resources.insert resourceId { row with bundleAttachmentId := bundle } }
          | none => store)
        fun _ => ())
    releaseReplacedBundle now current.bundleAttachmentId bundle

/-- What `editMessage` does with the attachments of a file message: the references of the new content are locked, and what the old one
alone referred to is released after the commit. -/
def editMessage (now : Int) (messageId : String) (content : List String) : AttachmentScript Unit := do
  let released ← Script.transaction (do
    let found ← Script.lockAndRead (fun _ => [.message messageId]) fun s => s.messages.lookup messageId
    let previous ← Script.check (match found with
      | some refs => .ok refs
      | none => .error (.notFound s!"Message \"{messageId}\" not found"))
    lockFileAttachmentRefsIfPresent content
    Script.exec (fun _ => [])
      (fun _ store => { store with messages := store.messages.insert messageId { previous with content := content } }) fun _ => ()
    Script.mayFail .database
    pure (previous.content.dedup.filter fun id => decide (id ∉ content)))
  cleanUpEach (deleteAttachmentIfUnreferenced now none) released

end Attachments

/-! ## Calls -/

/-- The calls on the attachments. -/
inductive AttachmentCall where
  | createAttachment (now : Int) (input : CreateAttachmentInput)
  | adoptTemplates (now : Int) (organizationId uploadedBy : String) (copies : List BundleCopy) (components : List (String × String))
  | createTeamResource (resourceId organizationId bundleAttachmentId : String)
  | updateResource (now : Int) (resourceId : String) (bundleAttachmentId : Option String)
  | sendMessage (messageId : String) (content : List String) (refs : List MessageAttachmentRef)
  | deleteAttachmentIfUnreferenced (now : Int) (id : String)
  | sweepOrphanAttachments (now : Int) (batchSize : Nat) (order : List String → List String)
  | sweepExpiredMessageAttachments (deleteEnabled : Bool) (now : Int) (batchSize maxBatches : Nat) (order : List String → List String)
  | backfillExternalAttachmentsToPostgres (now : Int) (batchSize : Nat) (bodyOf : String → Body)
  | editMessage (now : Int) (messageId : String) (content : List String)

namespace AttachmentCall

open Attachments

/-- The script of a call. -/
def script (quota : Nat) : AttachmentCall → AttachmentScript Unit
  | .createAttachment now input => do let _ ← Attachments.createAttachment quota now input; pure ()
  | .adoptTemplates now organizationId uploadedBy copies components =>
    Attachments.adoptTemplates quota now organizationId uploadedBy copies components
  | .createTeamResource resourceId organizationId bundleAttachmentId =>
    Attachments.createTeamResource resourceId organizationId bundleAttachmentId
  | .updateResource now resourceId bundleAttachmentId => Attachments.updateResource now resourceId bundleAttachmentId
  | .sendMessage messageId content refs => Attachments.sendMessage messageId content refs
  | .deleteAttachmentIfUnreferenced now id => do let _ ← Attachments.deleteAttachmentIfUnreferenced now none id; pure ()
  | .sweepOrphanAttachments now batchSize order => Attachments.sweepOrphanAttachments now batchSize order
  | .sweepExpiredMessageAttachments deleteEnabled now batchSize maxBatches order =>
    Attachments.sweepExpiredMessageAttachments deleteEnabled now batchSize maxBatches order
  | .backfillExternalAttachmentsToPostgres now batchSize bodyOf =>
    Attachments.backfillExternalAttachmentsToPostgres now batchSize bodyOf
  | .editMessage now messageId content => Attachments.editMessage now messageId content

/-- The identifiers of the attachments a call creates, with the organization it creates them for. -/
def creates : AttachmentCall → List (String × String)
  | .createAttachment _ input => [(input.id, input.organizationId)]
  | .adoptTemplates _ organizationId _ copies _ => copies.map fun copy => (copy.id, organizationId)
  | _ => []

end AttachmentCall

end FirstTree
