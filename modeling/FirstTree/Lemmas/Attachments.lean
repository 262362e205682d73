import FirstTree.Lib.AssocList
import FirstTree.Lib.Scripts
import FirstTree.Server.Attachments

/-!
# The discipline of the attachment scripts

What the scripts keep between them: the usage of every organization is within its quota; a row that is marked for removal or is new
keeps out of the reach of a removal that is still to come; and each lock protects what its holder relies on.
-/

namespace FirstTree

open Transactions Scripts Attachments

/-! ## What the attachments are to meet -/

/-- The two kinds of references that protect an attachment. -/
inductive ReferenceKind where
  | bundle | message
  deriving DecidableEq

/-- A committed resource holds the attachment as its bundle, or the `metadata.attachments` of a committed message refer to it. -/
def Referenced : ReferenceKind → String → AttachmentStore → Prop
  | .bundle, id, s => ∃ resourceId row, s.resources.lookup resourceId = some row ∧ row.bundleAttachmentId = some id
  | .message, id, s => ∃ messageId refs, s.messages.lookup messageId = some refs ∧ id ∈ refs.attachments

/-- The rows of each organization number at most the quota, and their bytes sum to at most the limit. -/
def WithinQuota (quota : Nat) (s : AttachmentStore) : Prop :=
  ∀ organizationId, (organizationUsage organizationId none s).objectCount ≤ quota ∧
    (organizationUsage organizationId none s).sizeBytes ≤ maxOrganizationAttachmentBytes

/-- Every caller has at most three uploads in progress for an organization. -/
def UploadsWithinLimit (s : AttachmentStore) : Prop :=
  ∀ organizationId uploadedBy, activeUploads organizationId uploadedBy s ≤ maxConcurrentAttachmentUploadsPerCaller

/-- The bytes of a row are as many as it says and not more than an attachment may have, and a ready row has some here or in the blob
store. -/
structure BytesRecorded (row : AttachmentRow) : Prop where
  length : ∀ bytes, row.data = some bytes → bytes.length = row.sizeBytes
  limit : row.sizeBytes ≤ maxAttachmentBytes
  available : row.lifecycleState = .ready → row.data.isSome = true ∨ row.objectKey.isSome = true

/-- What is published of an attachment. -/
structure SamePublished (row row' : AttachmentRow) : Prop where
  organizationId : row'.organizationId = row.organizationId
  mimeType : row'.mimeType = row.mimeType
  filename : row'.filename = row.filename
  sizeBytes : row'.sizeBytes = row.sizeBytes
  uploadedBy : row'.uploadedBy = row.uploadedBy
  createdAt : row'.createdAt = row.createdAt
  data : ∀ bytes, row.data = some bytes → row'.data = some bytes
  state : row'.lifecycleState ≠ .uploading

/-- An attachment whose upload is over is never written again: it stays as it was published, until it is gone. -/
def WrittenOnce (s t : AttachmentStore) : Prop :=
  ∀ id row row', s.attachments.lookup id = some row → row.lifecycleState ≠ .uploading → t.attachments.lookup id = some row' →
    SamePublished row row'

/-- The attachments with a reference of a kind stay, and are not marked for deletion. -/
def KeepsReferenced (kind : ReferenceKind) (s t : AttachmentStore) : Prop :=
  ∀ id row, s.attachments.lookup id = some row → Referenced kind id s →
    ∃ row', t.attachments.lookup id = some row' ∧ (row'.lifecycleState = .deleting → row.lifecycleState = .deleting)

namespace AttachmentsAux

/-! ## Usage -/

/-- One for each row of an organization. -/
def countWeight (organizationId : String) (e : (_ : String) × AttachmentRow) : Nat :=
  if e.2.organizationId = some organizationId then 1 else 0

/-- The bytes of the rows of an organization. -/
def sizeWeight (organizationId : String) (e : (_ : String) × AttachmentRow) : Nat :=
  if e.2.organizationId = some organizationId then e.2.sizeBytes else 0

/-- One for each upload of a caller for an organization. -/
def uploadWeight (organizationId uploadedBy : String) (e : (_ : String) × AttachmentRow) : Nat :=
  if e.2.organizationId = some organizationId ∧ e.2.uploadedBy = uploadedBy ∧ e.2.lifecycleState = .uploading then 1 else 0

/-- Every row is in one of the states that count. -/
theorem state_counts (state : AttachmentLifecycleState) : state = .uploading ∨ state = .ready ∨ state = .deleting := by
  cases state <;> simp

/-- The usage of an organization is the total of its rows. -/
theorem objectCount_eq (organizationId : String) (s : AttachmentStore) :
    (organizationUsage organizationId none s).objectCount = AssocList.total (countWeight organizationId) s.attachments := by
  simp only [organizationUsage, AssocList.length_filter_eq_total]
  congr 1
  funext e
  simp [countWeight, state_counts, truthy]

theorem sizeBytes_eq (organizationId : String) (s : AttachmentStore) :
    (organizationUsage organizationId none s).sizeBytes = AssocList.total (sizeWeight organizationId) s.attachments := by
  simp only [organizationUsage, AssocList.sum_filter_eq_total]
  congr 1
  funext e
  simp [sizeWeight, state_counts, truthy]

/-- The uploads of a caller are the total of theirs. -/
theorem activeUploads_eq (organizationId uploadedBy : String) (s : AttachmentStore) :
    activeUploads organizationId uploadedBy s = AssocList.total (uploadWeight organizationId uploadedBy) s.attachments := by
  simp only [activeUploads, AssocList.length_filter_eq_total, decide_eq_true_eq]
  rfl

/-- A row of an organization counts for no more than another. -/
structure Covers (organizationId : String) (row row' : AttachmentRow) : Prop where
  organization : row'.organizationId = some organizationId
  size : row.sizeBytes ≤ row'.sizeBytes
  uploading : row.lifecycleState = .uploading → row'.lifecycleState = .uploading ∧ row'.uploadedBy = row.uploadedBy

/-- No row of an organization is new or counts for more. -/
def NoGrowth (organizationId : String) (s t : AttachmentStore) : Prop :=
  ∀ id row, t.attachments.lookup id = some row → row.organizationId = some organizationId →
    ∃ row', s.attachments.lookup id = some row' ∧ Covers organizationId row row'

theorem NoGrowth.refl (organizationId : String) (s : AttachmentStore) : NoGrowth organizationId s s :=
  fun _ row h horg => ⟨row, h, horg, le_rfl, fun hup => ⟨hup, rfl⟩⟩

theorem NoGrowth.trans {organizationId : String} {s t u : AttachmentStore} (h₁ : NoGrowth organizationId s t)
    (h₂ : NoGrowth organizationId t u) : NoGrowth organizationId s u := by
  intro id row h horg
  obtain ⟨row₁, hrow₁, hcovers₁⟩ := h₂ id row h horg
  obtain ⟨row₂, hrow₂, hcovers₂⟩ := h₁ id row₁ hrow₁ hcovers₁.organization
  refine ⟨row₂, hrow₂, hcovers₂.organization, hcovers₁.size.trans hcovers₂.size, fun hup => ?_⟩
  obtain ⟨hup₁, hby₁⟩ := hcovers₁.uploading hup
  obtain ⟨hup₂, hby₂⟩ := hcovers₂.uploading hup₁
  exact ⟨hup₂, hby₂.trans hby₁⟩

/-- A weight that counts only the rows of an organization, and none for more than a row that covers it. -/
structure OrganizationWeight (organizationId : String) (w : (_ : String) × AttachmentRow → Nat) : Prop where
  others : ∀ e, e.2.organizationId ≠ some organizationId → w e = 0
  covers : ∀ id row row', row.organizationId = some organizationId → Covers organizationId row row' → w ⟨id, row⟩ ≤ w ⟨id, row'⟩

theorem organizationWeight_count (organizationId : String) : OrganizationWeight organizationId (countWeight organizationId) where
  others _ h := if_neg h
  covers id row row' horg hcovers := by simp [countWeight, horg, hcovers.organization]

theorem organizationWeight_size (organizationId : String) : OrganizationWeight organizationId (sizeWeight organizationId) where
  others _ h := if_neg h
  covers id row row' horg hcovers := by simpa [sizeWeight, horg, hcovers.organization] using hcovers.size

theorem organizationWeight_upload (organizationId uploadedBy : String) :
    OrganizationWeight organizationId (uploadWeight organizationId uploadedBy) where
  others _ h := if_neg fun h' => h h'.1
  covers id row row' horg hcovers := by
    by_cases hup : row.uploadedBy = uploadedBy ∧ row.lifecycleState = .uploading
    · obtain ⟨hup', hby'⟩ := hcovers.uploading hup.2
      simp [uploadWeight, horg, hup.1, hup.2, hcovers.organization, hup', hby']
    · simp [uploadWeight, horg, hup]

/-- A total of an organization's rows does not rise when none of them has grown. -/
theorem NoGrowth.total_le {organizationId : String} {s t : AttachmentStore} (h : NoGrowth organizationId s t)
    {w : (_ : String) × AttachmentRow → Nat} (hw : OrganizationWeight organizationId w) :
    AssocList.total w t.attachments ≤ AssocList.total w s.attachments := by
  refine AssocList.total_le_total w w fun id row hrow => ?_
  by_cases horg : row.organizationId = some organizationId
  · obtain ⟨row', hrow', hcovers⟩ := h id row hrow horg
    simpa [AssocList.weightAt, hrow'] using hw.covers id row row' horg hcovers
  · simp [hw.others ⟨id, row⟩ horg]

/-- Erasing a row from both leaves no row that has grown. -/
theorem NoGrowth.drop {organizationId : String} {s t : AttachmentStore} (h : NoGrowth organizationId s t) (id : String) :
    NoGrowth organizationId (dropAttachment id s) (dropAttachment id t) := by
  intro k row hrow horg
  have hne : k ≠ id := by
    rintro rfl
    simp [dropAttachment] at hrow
  simp only [dropAttachment, AList.lookup_erase_ne hne] at hrow ⊢
  exact h k row hrow horg

/-- Writing one row into both leaves no row that has grown. -/
theorem NoGrowth.set {organizationId : String} {s t : AttachmentStore} (h : NoGrowth organizationId s t) (id : String)
    (row : AttachmentRow) : NoGrowth organizationId (setAttachment id row s) (setAttachment id row t) := by
  intro k row' hrow horg
  by_cases hk : k = id
  · subst hk
    simp only [setAttachment, AList.lookup_insert, Option.some.injEq] at hrow
    subst hrow
    exact ⟨row, by simp [setAttachment], horg, le_rfl, fun hup => ⟨hup, rfl⟩⟩
  · simp only [setAttachment, AList.lookup_insert_ne hk] at hrow ⊢
    exact h k row' hrow horg

/-- Beside the row of an identifier, one more object of a size is within the quota. -/
structure Room (quota : Nat) (organizationId id : String) (bytes : Nat) (s : AttachmentStore) : Prop where
  objects : AssocList.total (countWeight organizationId) (s.attachments.erase id) + 1 ≤ quota
  bytes : AssocList.total (sizeWeight organizationId) (s.attachments.erase id) + bytes ≤ maxOrganizationAttachmentBytes

/-- The rows of an organization beside an identifier's are among those that the quota's check selects. -/
theorem total_erase_le_selected {organizationId id : String} {excludeId : Option String} {s : AttachmentStore}
    (hexclude : excludeId = none ∨ excludeId = some id) {w : (_ : String) × AttachmentRow → Nat}
    (hw : OrganizationWeight organizationId w) :
    AssocList.total w (s.attachments.erase id) ≤ AssocList.total (fun e => if decide (e.2.organizationId = some organizationId ∧
      e.2.lifecycleState ∈ [AttachmentLifecycleState.uploading, .ready, .deleting] ∧ some e.1 ≠ truthy excludeId) = true then w e
      else 0) s.attachments := by
  refine AssocList.total_le_total _ _ fun k row hrow => ?_
  have hne : k ≠ id := by
    rintro rfl
    simp at hrow
  rw [AList.lookup_erase_ne hne] at hrow
  have hselect : some k ≠ truthy excludeId := by
    rcases hexclude with rfl | rfl
    · simp [truthy]
    · intro heq
      exact hne (Option.some.inj (Option.filter_eq_some_iff.mp heq.symm).1).symm
  simp only [AssocList.weightAt, hrow, Option.elim_some]
  by_cases horg : row.organizationId = some organizationId
  · simp [horg, state_counts, hselect]
  · simp [hw.others ⟨k, row⟩ horg]

/-- What the quota's check has found, where it excludes the row or none. -/
theorem room_of_checkUsage {quota : Nat} {organizationId id : String} {excludeId : Option String} {bytes : Nat} {s : AttachmentStore}
    (hexclude : excludeId = none ∨ excludeId = some id)
    (h : checkUsage quota 1 bytes (organizationUsage organizationId excludeId s) = .ok ()) :
    Room quota organizationId id bytes s := by
  have hcount := total_erase_le_selected (s := s) hexclude (organizationWeight_count organizationId)
  have hsize := total_erase_le_selected (s := s) hexclude (organizationWeight_size organizationId)
  unfold checkUsage at h
  split at h
  · cases h
  · next hobjects =>
    split at h
    · cases h
    · next hbytes =>
      simp only [organizationUsage, AssocList.length_filter_eq_total, not_lt] at hobjects
      simp only [organizationUsage, AssocList.sum_filter_eq_total, not_lt] at hbytes
      refine ⟨le_trans (Nat.add_le_add_right (hcount.trans (AssocList.total_le_total _ _ fun k row hrow => ?_)) 1) hobjects,
        le_trans (Nat.add_le_add_right (hsize.trans (AssocList.total_le_total _ _ fun k row hrow => ?_)) bytes) hbytes⟩
      · simp only [AssocList.weightAt, hrow, Option.elim_some, countWeight]
        split <;> simp_all
      · simp only [AssocList.weightAt, hrow, Option.elim_some, sizeWeight]
        split <;> simp_all

/-- There is still room when no row of the organization has grown. -/
theorem Room.of_noGrowth {quota : Nat} {organizationId id : String} {bytes : Nat} {s t : AttachmentStore}
    (h : Room quota organizationId id bytes s) (hgrowth : NoGrowth organizationId s t) : Room quota organizationId id bytes t :=
  ⟨(Nat.add_le_add_right ((hgrowth.drop id).total_le (organizationWeight_count organizationId)) 1).trans h.objects,
    (Nat.add_le_add_right ((hgrowth.drop id).total_le (organizationWeight_size organizationId)) bytes).trans h.bytes⟩

/-- No organization has grown beyond its quota when no row has. -/
theorem withinQuota_of_noGrowth {quota : Nat} {s t : AttachmentStore} (h : WithinQuota quota s)
    (hgrowth : ∀ organizationId, NoGrowth organizationId s t) : WithinQuota quota t := by
  intro organizationId
  have hs := h organizationId
  rw [objectCount_eq, sizeBytes_eq] at hs ⊢
  exact ⟨((hgrowth organizationId).total_le (organizationWeight_count organizationId)).trans hs.1,
    ((hgrowth organizationId).total_le (organizationWeight_size organizationId)).trans hs.2⟩

/-- No caller has more uploads when no row has grown. -/
theorem uploadsWithinLimit_of_noGrowth {s t : AttachmentStore} (h : UploadsWithinLimit s)
    (hgrowth : ∀ organizationId, NoGrowth organizationId s t) : UploadsWithinLimit t := by
  intro organizationId uploadedBy
  have hs := h organizationId uploadedBy
  rw [activeUploads_eq] at hs ⊢
  exact ((hgrowth organizationId).total_le (organizationWeight_upload organizationId uploadedBy)).trans hs

/-- The total of a weight after a row is written, where the row counts for nothing. -/
theorem total_setAttachment_of_zero {w : (_ : String) × AttachmentRow → Nat} {id : String} {row : AttachmentRow}
    (hw : w ⟨id, row⟩ = 0) (s : AttachmentStore) : AssocList.total w (setAttachment id row s).attachments ≤
      AssocList.total w s.attachments := by
  have h := AssocList.total_insert w s.attachments id row
  simp only [setAttachment]
  omega

/-- The total of a weight after a row is written is that of the other rows with its own. -/
theorem total_setAttachment (w : (_ : String) × AttachmentRow → Nat) (id : String) (row : AttachmentRow) (s : AttachmentStore) :
    AssocList.total w (setAttachment id row s).attachments = AssocList.total w (s.attachments.erase id) + w ⟨id, row⟩ := by
  have h := AssocList.total_insert w s.attachments id row
  have h' := AssocList.total_erase w s.attachments id
  simp only [setAttachment]
  omega

/-- A row there is room for keeps the quotas. -/
theorem withinQuota_setAttachment {quota : Nat} {organizationId id : String} {s : AttachmentStore} {row : AttachmentRow}
    (h : WithinQuota quota s) (horg : row.organizationId = some organizationId)
    (hroom : Room quota organizationId id row.sizeBytes s) :
    WithinQuota quota (setAttachment id row s) := by
  intro organizationId'
  have hs := h organizationId'
  rw [objectCount_eq, sizeBytes_eq] at hs ⊢
  by_cases heq : organizationId' = organizationId
  · subst heq
    have hcount : countWeight organizationId' ⟨id, row⟩ = 1 := if_pos horg
    have hsize : sizeWeight organizationId' ⟨id, row⟩ = row.sizeBytes := if_pos horg
    rw [total_setAttachment, total_setAttachment, hcount, hsize]
    exact ⟨hroom.objects, hroom.bytes⟩
  · have hne : row.organizationId ≠ some organizationId' := by
      rw [horg]
      exact fun h => heq (Option.some.inj h).symm
    exact ⟨(total_setAttachment_of_zero ((organizationWeight_count organizationId').others ⟨id, row⟩ hne) s).trans hs.1,
      (total_setAttachment_of_zero ((organizationWeight_size organizationId').others ⟨id, row⟩ hne) s).trans hs.2⟩

/-- A row that is no upload keeps the limit of the uploads, and so does one that its caller has a place for. -/
theorem uploadsWithinLimit_setAttachment {organizationId id : String} {s : AttachmentStore} {row : AttachmentRow}
    (h : UploadsWithinLimit s) (horg : row.organizationId = some organizationId)
    (hplace : row.lifecycleState = .uploading →
      AssocList.total (uploadWeight organizationId row.uploadedBy) s.attachments + 1 ≤ maxConcurrentAttachmentUploadsPerCaller) :
    UploadsWithinLimit (setAttachment id row s) := by
  intro organizationId' uploadedBy
  have hs := h organizationId' uploadedBy
  rw [activeUploads_eq] at hs ⊢
  by_cases hrow : row.organizationId = some organizationId' ∧ row.uploadedBy = uploadedBy ∧ row.lifecycleState = .uploading
  · obtain ⟨horg', rfl, hup⟩ := hrow
    obtain rfl : organizationId = organizationId' := Option.some.inj (horg.symm.trans horg')
    have hweight : uploadWeight organizationId row.uploadedBy ⟨id, row⟩ = 1 := if_pos ⟨horg, rfl, hup⟩
    have herase := AssocList.total_erase (uploadWeight organizationId row.uploadedBy) s.attachments id
    have hroom := hplace hup
    rw [total_setAttachment, hweight]
    omega
  · exact (total_setAttachment_of_zero (if_neg hrow) s).trans hs

/-! ## The discipline -/

/-- A removal that is still to come finds no row, or one that is marked and has no reference of the kind, or one it does not take. -/
def Released (kind : ReferenceKind) (id : String) (s : AttachmentStore) : Prop :=
  ∀ row, s.attachments.lookup id = some row →
    (row.lifecycleState = .deleting ∧ ¬ Referenced kind id s) ∨ (row.objectKey = none ∧ row.lifecycleState ≠ .deleting)

/-- The row of an identifier is of the organization the identifier is for. -/
def OwnedBy (organizationOf : String → String) (id : String) (s : AttachmentStore) : Prop :=
  ∀ row, s.attachments.lookup id = some row → row.organizationId = some (organizationOf id)

/-- A row with a blob is not new, and once its upload is over its size stays. -/
def LegacyKept (id : String) (s t : AttachmentStore) : Prop :=
  ∀ row', t.attachments.lookup id = some row' → row'.objectKey ≠ none →
    ∃ row, s.attachments.lookup id = some row ∧ row.objectKey = row'.objectKey ∧
      (row.lifecycleState ≠ .uploading → row'.lifecycleState ≠ .uploading ∧ row'.sizeBytes = row.sizeBytes)

/-- The aspects of the store that a run may be about. -/
inductive Aspect where
  | quota | uploads | bytes | references (kind : ReferenceKind)
  deriving DecidableEq

/-- What holds of the committed rows, by the aspects. -/
structure StoreOk (aspects : Aspect → Prop) (quota : Nat) (s : AttachmentStore) : Prop where
  quota : aspects .quota → WithinQuota quota s
  uploads : aspects .uploads → UploadsWithinLimit s
  rows : aspects .bytes → ∀ id row, s.attachments.lookup id = some row → BytesRecorded row

/-- What every commit keeps, by the aspects. -/
structure Kept (aspects : Aspect → Prop) (organizationOf : String → String) (s t : AttachmentStore) : Prop where
  owned : ∀ id, OwnedBy organizationOf id s → OwnedBy organizationOf id t
  released : ∀ kind, aspects (.references kind) → ∀ id, Released kind id s → Released kind id t
  legacy : ∀ id, LegacyKept id s t

/-- What a lock protects, by the aspects. -/
def Protected (aspects : Aspect → Prop) : AttachmentLock → AttachmentStore → AttachmentStore → Prop
  | .organizationQuota organizationId, s, t => NoGrowth organizationId s t
  | .row .update id, s, t => t.attachments.lookup id = s.attachments.lookup id ∧
      ∀ kind, aspects (.references kind) → Referenced kind id t → Referenced kind id s
  | .row .noKeyUpdate id, s, t => t.attachments.lookup id = s.attachments.lookup id
  | .row .keyShare id, s, t => ∀ row, s.attachments.lookup id = some row → row.lifecycleState = .ready →
      ∃ row', t.attachments.lookup id = some row' ∧ row'.lifecycleState = .ready
  | .resource id, s, t => t.resources.lookup id = s.resources.lookup id
  | .message id, s, t => t.messages.lookup id = s.messages.lookup id

theorem legacyKept_refl (id : String) (s : AttachmentStore) : LegacyKept id s s :=
  fun row h _ => ⟨row, h, rfl, fun hstate => ⟨hstate, rfl⟩⟩

theorem LegacyKept.trans {id : String} {s t u : AttachmentStore} (h₁ : LegacyKept id s t) (h₂ : LegacyKept id t u) :
    LegacyKept id s u := by
  intro row₂ hrow₂ hkey₂
  obtain ⟨row₁, hrow₁, hkey₁, hkept₁⟩ := h₂ row₂ hrow₂ hkey₂
  obtain ⟨row, hrow, hkey, hkept⟩ := h₁ row₁ hrow₁ (hkey₁ ▸ hkey₂)
  refine ⟨row, hrow, hkey.trans hkey₁, fun hstate => ?_⟩
  obtain ⟨hstate₁, hsize₁⟩ := hkept hstate
  obtain ⟨hstate₂, hsize₂⟩ := hkept₁ hstate₁
  exact ⟨hstate₂, hsize₂.trans hsize₁⟩

theorem protected_refl (aspects : Aspect → Prop) (l : AttachmentLock) (s : AttachmentStore) : Protected aspects l s s := by
  rcases l with organizationId | ⟨mode, id⟩ | id | id
  · exact NoGrowth.refl organizationId s
  · cases mode with
    | keyShare => exact fun row h hready => ⟨row, h, hready⟩
    | noKeyUpdate => exact rfl
    | update => exact ⟨rfl, fun _ _ h => h⟩
  · exact rfl
  · exact rfl

theorem protected_trans (aspects : Aspect → Prop) (l : AttachmentLock) (s t u : AttachmentStore) (h₁ : Protected aspects l s t)
    (h₂ : Protected aspects l t u) : Protected aspects l s u := by
  rcases l with organizationId | ⟨mode, id⟩ | id | id
  · exact NoGrowth.trans h₁ h₂
  · cases mode with
    | keyShare =>
      intro row h hready
      obtain ⟨row₁, hrow₁, hready₁⟩ := h₁ row h hready
      exact h₂ row₁ hrow₁ hready₁
    | noKeyUpdate => exact Eq.trans h₂ h₁
    | update => exact ⟨h₂.1.trans h₁.1, fun kind hkind h => h₁.2 kind hkind (h₂.2 kind hkind h)⟩
  · exact Eq.trans h₂ h₁
  · exact Eq.trans h₂ h₁

/-- The discipline of the attachments, by the quota and the organizations the identifiers are for. -/
def attachmentDiscipline (aspects : Aspect → Prop) (quota : Nat) (organizationOf : String → String) :
    Discipline AttachmentStore AttachmentLock where
  Inv := StoreOk aspects quota
  Always := Kept aspects organizationOf
  Protects := Protected aspects
  always_refl s := ⟨fun _ h => h, fun _ _ _ h => h, fun id => legacyKept_refl id s⟩
  always_trans _ _ _ h₁ h₂ := ⟨fun id h => h₂.owned id (h₁.owned id h),
    fun kind hkind id h => h₂.released kind hkind id (h₁.released kind hkind id h), fun id => (h₁.legacy id).trans (h₂.legacy id)⟩
  protects_refl := protected_refl aspects
  protects_trans := protected_trans aspects

/-- Two locks are in conflict in either order. -/
theorem conflicts_symm (l l' : AttachmentLock) : l.conflicts l' = l'.conflicts l := by
  rcases l with a | ⟨mode, a⟩ | a | a <;> rcases l' with b | ⟨mode', b⟩ | b | b <;>
    simp only [AttachmentLock.conflicts, eq_comm (a := a) (b := b)]
  cases mode <;> cases mode' <;> rfl

/-! ## What a commit changes -/

/-- A commit under locks changes the row of an identifier as it may. -/
structure RowStep (organizationOf : String → String) (held : List AttachmentLock) (id : String) (s t : AttachmentStore) : Prop where
  locked : .row .update id ∈ held ∨ .row .noKeyUpdate id ∈ held ∧
    ∀ row, s.attachments.lookup id = some row → row.lifecycleState = .ready →
      ∃ row', t.attachments.lookup id = some row' ∧ row'.lifecycleState = .ready
  covered : ∀ row organizationId, t.attachments.lookup id = some row → row.organizationId = some organizationId →
    .organizationQuota organizationId ∈ held ∨ ∃ row', s.attachments.lookup id = some row' ∧ Covers organizationId row row'
  owned : OwnedBy organizationOf id s → OwnedBy organizationOf id t
  released : ∀ kind, Released kind id s → Released kind id t
  legacy : LegacyKept id s t

/-- A commit under locks makes a reference as it may: the row is locked, and no removal to come takes it. -/
structure ReferenceStep (held : List AttachmentLock) (kind : ReferenceKind) (id : String) (s t : AttachmentStore) : Prop where
  locked : .row .update id ∈ held ∨ .row .keyShare id ∈ held
  released : Released kind id s → Released kind id t

/-- A row that is not changed is still out of the reach of a removal, where no reference of the kind is made. -/
theorem released_of_same {kind : ReferenceKind} {id : String} {s t : AttachmentStore}
    (hrow : t.attachments.lookup id = s.attachments.lookup id) (href : Referenced kind id t → Referenced kind id s)
    (h : Released kind id s) : Released kind id t := by
  intro row hlookup
  rcases h row (hrow ▸ hlookup) with ⟨hstate, hnone⟩ | h
  · exact .inl ⟨hstate, fun ht => hnone (href ht)⟩
  · exact .inr h

/-- A commit whose changes of rows and references are as they may be does its part for the others. -/
theorem guarantees_of_steps {aspects : Aspect → Prop} {quota : Nat} {organizationOf : String → String} {held : List AttachmentLock}
    {s t : AttachmentStore} (hinv : StoreOk aspects quota t)
    (hrows : ∀ id, t.attachments.lookup id = s.attachments.lookup id ∨ RowStep organizationOf held id s t)
    (hreferences : ∀ kind, aspects (.references kind) → ∀ id,
      (Referenced kind id t → Referenced kind id s) ∨ ReferenceStep held kind id s t)
    (hresources : ∀ id, t.resources.lookup id = s.resources.lookup id ∨ .resource id ∈ held)
    (hmessages : ∀ id, t.messages.lookup id = s.messages.lookup id ∨ .message id ∈ held) :
    (attachmentDiscipline aspects quota organizationOf).Guarantees AttachmentLock.conflicts held s t where
  inv := hinv
  always := by
    refine ⟨fun id howned => ?_, fun kind hkind id hreleased => ?_, fun id => ?_⟩
    · rcases hrows id with hsame | hstep
      · exact fun row hrow => howned row (hsame ▸ hrow)
      · exact hstep.owned howned
    · rcases hrows id with hsame | hstep
      · rcases hreferences kind hkind id with href | href
        · exact released_of_same hsame href hreleased
        · exact href.released hreleased
      · exact hstep.released kind hreleased
    · rcases hrows id with hsame | hstep
      · exact fun row hrow _ => ⟨row, hsame ▸ hrow, rfl, fun hstate => ⟨hstate, rfl⟩⟩
      · exact hstep.legacy
  protects := by
    intro l hapart
    rcases l with organizationId | ⟨mode, id⟩ | id | id
    · intro id row hrow horg
      rcases hrows id with hsame | hstep
      · exact ⟨row, hsame ▸ hrow, horg, le_rfl, fun hup => ⟨hup, rfl⟩⟩
      · rcases hstep.covered row organizationId hrow horg with hheld | hcovered
        · simpa [AttachmentLock.conflicts] using hapart _ hheld
        · exact hcovered
    · have hsame : mode ≠ .keyShare → t.attachments.lookup id = s.attachments.lookup id := by
        intro hmode
        rcases hrows id with hsame | hstep
        · exact hsame
        · rcases hstep.locked with hheld | ⟨hheld, _⟩ <;> have hconflict := hapart _ hheld <;>
            cases mode <;> simp_all [AttachmentLock.conflicts, RowLock.conflicts]
      cases mode with
      | keyShare =>
        intro row hrow hready
        rcases hrows id with hsame | hstep
        · exact ⟨row, hsame ▸ hrow, hready⟩
        · rcases hstep.locked with hheld | ⟨_, hkept⟩
          · simpa [AttachmentLock.conflicts, RowLock.conflicts] using hapart _ hheld
          · exact hkept row hrow hready
      | noKeyUpdate => exact hsame (by simp)
      | update =>
        refine ⟨hsame (by simp), fun kind hkind => ?_⟩
        rcases hreferences kind hkind id with href | href
        · exact href
        · rcases href.locked with hheld | hheld <;>
            simpa [AttachmentLock.conflicts, RowLock.conflicts] using hapart _ hheld
    · rcases hresources id with hsame | hheld
      · exact hsame
      · simpa [AttachmentLock.conflicts] using hapart _ hheld
    · rcases hmessages id with hsame | hheld
      · exact hsame
      · simpa [AttachmentLock.conflicts] using hapart _ hheld

end AttachmentsAux

end FirstTree
