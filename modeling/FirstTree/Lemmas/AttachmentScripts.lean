import FirstTree.Lib.Scripts
import FirstTree.Lemmas.Attachments
import FirstTree.Server.Attachments

/-!
# The attachment scripts meet the discipline

What one commit of each kind does for the others, and from it a specification of each script: the deletion of a row, the change of
a row that stays, the insertion of rows an organization has room for, the binding of a bundle, and the sends and edits of
messages.
-/

namespace FirstTree

open Transactions Scripts Attachments

namespace AttachmentsAux

/-- What a commit keeps beyond the discipline: the attachments with a reference of some kinds stay, and none is written twice. -/
structure Good (kinds : ReferenceKind → Prop) (s t : AttachmentStore) : Prop where
  keeps : ∀ kind, kinds kind → KeepsReferenced kind s t
  writtenOnce : WrittenOnce s t

/-- A script that meets the discipline, with commits that keep the references of some kinds. -/
abbrev Ok {α : Type} (aspects : Aspect → Prop) (quota : Nat) (organizationOf : String → String) (kinds : ReferenceKind → Prop)
    (post : Except AttachmentError α → List AttachmentLock → (AttachmentStore → AttachmentStore) → AttachmentStore → Prop)
    (p : AttachmentScript α) (held : List AttachmentLock) (own : AttachmentStore → AttachmentStore) (s : AttachmentStore) : Prop :=
  Script.Meets (attachmentDiscipline aspects quota organizationOf) AttachmentLock.conflicts (fun _ _ => True)
    (Good kinds) post p held own s

/-- The end of a transaction of such a script. -/
abbrev Ends {α : Type} (aspects : Aspect → Prop) (quota : Nat) (organizationOf : String → String) (kinds : ReferenceKind → Prop)
    (post : Except AttachmentError α → List AttachmentLock → (AttachmentStore → AttachmentStore) → AttachmentStore → Prop) :=
  Script.Settled (attachmentDiscipline aspects quota organizationOf) AttachmentLock.conflicts (fun _ _ => True) (Good kinds) post

/-- What a script that holds locks knows of a later store. -/
abbrev Later (aspects : Aspect → Prop) (quota : Nat) (organizationOf : String → String) (held : List AttachmentLock)
    (s t : AttachmentStore) : Prop :=
  (attachmentDiscipline aspects quota organizationOf).Meanwhile held s t

/-- A transaction may commit what it has written, now or later. -/
def Committable (aspects : Aspect → Prop) (quota : Nat) (organizationOf : String → String) (kinds : ReferenceKind → Prop)
    (held : List AttachmentLock) (own : AttachmentStore → AttachmentStore) (s : AttachmentStore) : Prop :=
  ∀ t, Later aspects quota organizationOf held s t →
    (attachmentDiscipline aspects quota organizationOf).Guarantees AttachmentLock.conflicts held t (own t) ∧ Good kinds t (own t)

variable {α : Type} {aspects : Aspect → Prop} {quota : Nat} {organizationOf : String → String} {kinds : ReferenceKind → Prop}
  {held : List AttachmentLock}
  {key : String} {row row' : AttachmentRow} {own : AttachmentStore → AttachmentStore} {s t : AttachmentStore}
  {post : Except AttachmentError α → List AttachmentLock → (AttachmentStore → AttachmentStore) → AttachmentStore → Prop}

/-- The end of a transaction that may commit. -/
theorem ends_ok {a : α} (h : Committable aspects quota organizationOf kinds held own s)
    (hpost : ∀ t, Later aspects quota organizationOf held s t → post (.ok a) [] id (own t)) :
    Ends aspects quota organizationOf kinds post (.ok a) held own s :=
  fun t ht _ => ⟨(h t ht).1, (h t ht).2, hpost t ht⟩

/-- A row that stays as it is has been published as it is. -/
theorem samePublished_refl (h : row.lifecycleState ≠ .uploading) : SamePublished row row :=
  ⟨rfl, rfl, rfl, rfl, rfl, rfl, fun _ h => h, h⟩

/-- A row found is the row of its identifier, and meets the condition. -/
theorem attachmentWhere_eq_some {condition : AttachmentRow → Bool} :
    attachmentWhere key condition s = some row ↔ s.attachments.lookup key = some row ∧ condition row = true := by
  rw [attachmentWhere, Option.filter_eq_some_iff]

/-- Without a condition the row found is the row of the identifier. -/
theorem attachmentWhere_true (key : String) (s : AttachmentStore) :
    attachmentWhere key (fun _ => true) s = s.attachments.lookup key := by
  cases h : s.attachments.lookup key <;> simp [attachmentWhere, h]

/-- The references are those of the resources and the messages. -/
theorem referenced_congr {kind : ReferenceKind} (hresources : t.resources = s.resources) (hmessages : t.messages = s.messages) :
    Referenced kind key t ↔ Referenced kind key s := by
  cases kind with
  | bundle => simp only [Referenced, hresources]
  | message => simp only [Referenced, hmessages]

/-! ## A commit without writes -/

/-- A commit that leaves the attachments as they are keeps everything. -/
theorem good_of_sameRows (kinds : ReferenceKind → Prop) (hsame : t.attachments = s.attachments) : Good kinds s t where
  keeps _ _ _ row hrow _ := ⟨row, by rw [hsame, hrow], fun h => h⟩
  writtenOnce k row row' hrow hstate hrow' := by
    obtain rfl : row = row' := Option.some.inj (hrow.symm.trans (hsame ▸ hrow'))
    exact samePublished_refl hstate

/-- A commit that leaves the store as it is keeps everything. -/
theorem good_refl (kinds : ReferenceKind → Prop) (s : AttachmentStore) : Good kinds s s := good_of_sameRows kinds rfl

/-- A transaction that has written nothing may commit. -/
theorem committable_id (held : List AttachmentLock) (s : AttachmentStore) :
    Committable aspects quota organizationOf kinds held id s :=
  fun t ht => ⟨.refl ht.inv, good_refl kinds t⟩

/-! ## The deletion of a row -/

/-- Without one of its rows, no organization has grown. -/
theorem noGrowth_drop (organizationId key : String) (s : AttachmentStore) : NoGrowth organizationId s (dropAttachment key s) := by
  intro k row hrow horg
  have hne : k ≠ key := by
    rintro rfl
    simp [dropAttachment] at hrow
  simp only [dropAttachment, AList.lookup_erase_ne hne] at hrow
  exact ⟨row, hrow, horg, le_rfl, fun hup => ⟨hup, rfl⟩⟩

theorem storeOk_drop (h : StoreOk aspects quota s) (key : String) : StoreOk aspects quota (dropAttachment key s) where
  quota hquota := withinQuota_of_noGrowth (h.quota hquota) fun organizationId => noGrowth_drop organizationId key s
  uploads huploads := uploadsWithinLimit_of_noGrowth (h.uploads huploads) fun organizationId => noGrowth_drop organizationId key s
  rows hbytes k row hrow := by
    have hne : k ≠ key := by
      rintro rfl
      simp [dropAttachment] at hrow
    simp only [dropAttachment, AList.lookup_erase_ne hne] at hrow
    exact h.rows hbytes k row hrow

/-- The commit of a deletion does its part. -/
theorem guarantees_drop (h : StoreOk aspects quota s) (hlock : .row .update key ∈ held) :
    (attachmentDiscipline aspects quota organizationOf).Guarantees AttachmentLock.conflicts held s (dropAttachment key s) := by
  have hgone : ∀ row, (dropAttachment key s).attachments.lookup key ≠ some row := by simp [dropAttachment]
  refine guarantees_of_steps (storeOk_drop h key) (fun k => ?_)
    (fun _ _ _ => .inl (referenced_congr (s := s) (t := dropAttachment key s) rfl rfl).mp) (fun _ => .inl rfl) (fun _ => .inl rfl)
  by_cases hk : k = key
  · subst hk
    exact .inr ⟨.inl hlock, fun row _ hrow => absurd hrow (hgone row), fun _ row hrow => absurd hrow (hgone row),
      fun _ _ row hrow => absurd hrow (hgone row), fun row hrow => absurd hrow (hgone row)⟩
  · exact .inl (AList.lookup_erase_ne hk)

/-- The deletion of a row without references keeps the referenced ones. -/
theorem good_drop (hsafe : ∀ kind, kinds kind → ¬ Referenced kind key s) : Good kinds s (dropAttachment key s) where
  keeps kind hkind k row hrow href := by
    have hne : k ≠ key := by
      rintro rfl
      exact hsafe kind hkind href
    exact ⟨row, by simpa [dropAttachment, AList.lookup_erase_ne hne] using hrow, fun h => h⟩
  writtenOnce k row row' hrow hstate hrow' := by
    have hne : k ≠ key := by
      rintro rfl
      simp [dropAttachment] at hrow'
    simp only [dropAttachment, AList.lookup_erase_ne hne] at hrow'
    obtain rfl : row = row' := Option.some.inj (hrow.symm.trans hrow')
    exact samePublished_refl hstate

/-- A deletion of a row where it meets a condition, when no row that does has a reference of the kinds. -/
theorem ok_deleteAttachment {condition : AttachmentRow → Bool} {held : List AttachmentLock}
    {post : Except AttachmentError Unit → List AttachmentLock → (AttachmentStore → AttachmentStore) → AttachmentStore → Prop}
    (hsafe : ∀ t row, Later aspects quota organizationOf held s t → t.attachments.lookup key = some row → condition row = true →
      ∀ kind, kinds kind → ¬ Referenced kind key t)
    (hpost : ∀ held own t, Committable aspects quota organizationOf kinds held own t → post (.ok ()) held own t) :
    Ok aspects quota organizationOf kinds post (deleteAttachment key condition) held id s := by
  simp only [deleteAttachment, Script.meets_exec]
  intro t ht
  refine hpost _ _ _ ?_
  cases hfound : attachmentWhere key condition (id t) with
  | none => exact committable_id _ t
  | some row =>
    obtain ⟨hrow, hcondition⟩ := attachmentWhere_eq_some.mp hfound
    intro u hu
    have hlock : .row .update key ∈ held ++ lockFound .update key (some row) :=
      List.mem_append_right _ (List.mem_singleton_self _)
    have hsame : u.attachments.lookup key = t.attachments.lookup key := (hu.protects _ hlock).1
    exact ⟨guarantees_drop hu.inv hlock,
      good_drop (hsafe u row (ht.trans (hu.subset (List.subset_append_left _ _))) (hsame.trans hrow) hcondition)⟩

/-! ## The change of a row that stays -/

/-- A change of a row that leaves what is published, and marks it at most. -/
structure RowTouch (row row' : AttachmentRow) : Prop where
  organizationId : row'.organizationId = row.organizationId
  objectKey : row'.objectKey = row.objectKey
  mimeType : row'.mimeType = row.mimeType
  filename : row'.filename = row.filename
  sizeBytes : row'.sizeBytes = row.sizeBytes
  uploadedBy : row'.uploadedBy = row.uploadedBy
  createdAt : row'.createdAt = row.createdAt
  data : ∀ bytes, row.data = some bytes → row'.data = some bytes
  state : row'.lifecycleState = row.lifecycleState ∨ row'.lifecycleState = .deleting ∧ row.objectKey ≠ none
  recorded : BytesRecorded row → BytesRecorded row'

/-- A touched row is an upload only if it was one. -/
theorem RowTouch.uploading (h : RowTouch row row') (hup : row'.lifecycleState = .uploading) : row.lifecycleState = .uploading := by
  rcases h.state with hstate | ⟨hstate, _⟩
  · exact hstate ▸ hup
  · rw [hstate] at hup
    cases hup

/-- No organization has grown where one of its rows is touched. -/
theorem RowTouch.noGrowth (h : RowTouch row row') (hrow : s.attachments.lookup key = some row) (organizationId : String) :
    NoGrowth organizationId s (setAttachment key row' s) := by
  intro k row₁ hrow₁ horg
  by_cases hk : k = key
  · subst hk
    simp only [setAttachment, AList.lookup_insert, Option.some.injEq] at hrow₁
    subst hrow₁
    exact ⟨row, hrow, h.organizationId ▸ horg, h.sizeBytes.le, fun hup => ⟨h.uploading hup, h.uploadedBy.symm⟩⟩
  · simp only [setAttachment, AList.lookup_insert_ne hk] at hrow₁
    exact ⟨row₁, hrow₁, horg, le_rfl, fun hup => ⟨hup, rfl⟩⟩

/-- The rows of a store with one row set. -/
theorem lookup_setAttachment {k : String} {row₁ : AttachmentRow} (h : (setAttachment key row' s).attachments.lookup k = some row₁) :
    k = key ∧ row₁ = row' ∨ k ≠ key ∧ s.attachments.lookup k = some row₁ := by
  by_cases hk : k = key
  · subst hk
    simp only [setAttachment, AList.lookup_insert, Option.some.injEq] at h
    exact .inl ⟨rfl, h.symm⟩
  · simp only [setAttachment, AList.lookup_insert_ne hk] at h
    exact .inr ⟨hk, h⟩

/-- The commit of a touched row does its part. -/
theorem guarantees_touch (h : StoreOk aspects quota s) (hrow : s.attachments.lookup key = some row) (htouch : RowTouch row row')
    (hlock : .row .update key ∈ held ∨ .row .noKeyUpdate key ∈ held ∧ row'.lifecycleState = row.lifecycleState) :
    (attachmentDiscipline aspects quota organizationOf).Guarantees AttachmentLock.conflicts held s (setAttachment key row' s) := by
  have hset : (setAttachment key row' s).attachments.lookup key = some row' := by simp [setAttachment]
  refine guarantees_of_steps ⟨fun hquota => withinQuota_of_noGrowth (h.quota hquota) (htouch.noGrowth hrow),
      fun huploads => uploadsWithinLimit_of_noGrowth (h.uploads huploads) (htouch.noGrowth hrow),
      fun hbytes k row₁ hrow₁ => ?_⟩ (fun k => ?_)
    (fun _ _ _ => .inl (referenced_congr (s := s) (t := setAttachment key row' s) rfl rfl).mp) (fun _ => .inl rfl) (fun _ => .inl rfl)
  · rcases lookup_setAttachment hrow₁ with ⟨rfl, rfl⟩ | ⟨_, hrow₁⟩
    · exact htouch.recorded (h.rows hbytes k row hrow)
    · exact h.rows hbytes k row₁ hrow₁
  by_cases hk : k = key
  · subst hk
    refine .inr ⟨?_, fun row₁ organizationId hrow₁ horg => ?_, fun howned row₁ hrow₁ => ?_, fun kind hreleased row₁ hrow₁ => ?_,
      fun row₁ hrow₁ _ => ?_⟩
    · rcases hlock with hlock | ⟨hlock, hstate⟩
      · exact .inl hlock
      · refine .inr ⟨hlock, fun row₁ hrow₁ hready => ⟨row', hset, ?_⟩⟩
        obtain rfl : row = row₁ := Option.some.inj (hrow.symm.trans hrow₁)
        exact hstate.trans hready
    · exact .inr (htouch.noGrowth hrow organizationId k row₁ hrow₁ horg)
    · obtain rfl : row' = row₁ := Option.some.inj (hset.symm.trans hrow₁)
      exact htouch.organizationId.trans (howned row hrow)
    · obtain rfl : row' = row₁ := Option.some.inj (hset.symm.trans hrow₁)
      -- A removal to come takes the row only where it is marked, and a row with a blob is out of its reach only so.
      rcases hreleased row hrow with ⟨hdeleting, hnone⟩ | ⟨hkey, hstate⟩
      · refine .inl ⟨?_, fun href => hnone ((referenced_congr (s := s) (t := setAttachment k row' s) rfl rfl).mp href)⟩
        rcases htouch.state with hstate | ⟨hstate, _⟩
        · exact hstate.trans hdeleting
        · exact hstate
      · refine .inr ⟨htouch.objectKey.trans hkey, ?_⟩
        rcases htouch.state with hsame | ⟨_, hblob⟩
        · exact hsame ▸ hstate
        · exact absurd hkey hblob
    · obtain rfl : row' = row₁ := Option.some.inj (hset.symm.trans hrow₁)
      exact ⟨row, hrow, htouch.objectKey.symm, fun hstate => ⟨fun hup => hstate (htouch.uploading hup), htouch.sizeBytes⟩⟩
  · exact .inl (AList.lookup_insert_ne hk)

/-- The commit of a touched row keeps the referenced ones, where it marks none of them. -/
theorem good_touch (hrow : s.attachments.lookup key = some row) (htouch : RowTouch row row')
    (hsafe : row'.lifecycleState = .deleting → row.lifecycleState = .deleting ∨ ∀ kind, kinds kind → ¬ Referenced kind key s) :
    Good kinds s (setAttachment key row' s) where
  keeps kind hkind k row₁ hrow₁ href := by
    by_cases hk : k = key
    · subst hk
      obtain rfl : row = row₁ := Option.some.inj (hrow.symm.trans hrow₁)
      refine ⟨row', by simp [setAttachment], fun hdeleting => ?_⟩
      rcases hsafe hdeleting with h | h
      · exact h
      · exact absurd href (h kind hkind)
    · exact ⟨row₁, by simpa [setAttachment, AList.lookup_insert_ne hk] using hrow₁, fun h => h⟩
  writtenOnce k row₁ row₂ hrow₁ hstate hrow₂ := by
    rcases lookup_setAttachment hrow₂ with ⟨rfl, rfl⟩ | ⟨_, hrow₂⟩
    · obtain rfl : row = row₁ := Option.some.inj (hrow.symm.trans hrow₁)
      exact ⟨htouch.organizationId, htouch.mimeType, htouch.filename, htouch.sizeBytes, htouch.uploadedBy, htouch.createdAt,
        htouch.data, fun hup => hstate (htouch.uploading hup)⟩
    · obtain rfl : row₁ = row₂ := Option.some.inj (hrow₁.symm.trans hrow₂)
      exact samePublished_refl hstate

/-- A later date is a touch. -/
theorem rowTouch_updatedAt (row : AttachmentRow) (now : Int) : RowTouch row { row with updatedAt := now } :=
  ⟨rfl, rfl, rfl, rfl, rfl, rfl, rfl, fun _ h => h, .inl rfl, fun h => ⟨h.length, h.limit, h.available⟩⟩

/-- The mark of a row with a blob is a touch. -/
theorem rowTouch_deleting (row : AttachmentRow) (now : Int) (hkey : row.objectKey ≠ none) :
    RowTouch row { row with lifecycleState := .deleting, updatedAt := now } :=
  ⟨rfl, rfl, rfl, rfl, rfl, rfl, rfl, fun _ h => h, .inr ⟨rfl, hkey⟩, fun h => ⟨h.length, h.limit, fun hready => by cases hready⟩⟩

/-! ## New rows -/

/-- What a transaction that adds rows for an organization shows of a committed store: each row is committed, or it is new under its
lock; and each reference is committed, or it is to a new row. -/
structure Adding (aspects : Aspect → Prop) (quota : Nat) (organizationOf : String → String) (organizationId : String)
    (held : List AttachmentLock) (t view : AttachmentStore) : Prop where
  inv : StoreOk aspects quota view
  rows : ∀ k, view.attachments.lookup k = t.attachments.lookup k ∨
    .organizationQuota organizationId ∈ held ∧ .row .update k ∈ held ∧ t.attachments.lookup k = none ∧
      organizationOf k = organizationId ∧
      ∃ row, view.attachments.lookup k = some row ∧ row.organizationId = some organizationId ∧ row.objectKey = none ∧
        row.lifecycleState ≠ .deleting
  references : ∀ kind k, (Referenced kind k view → Referenced kind k t) ∨
    .row .update k ∈ held ∧ t.attachments.lookup k = none
  resources : ∀ k, view.resources.lookup k = t.resources.lookup k ∨ .resource k ∈ held
  messages : view.messages = t.messages

/-- The writes of a transaction add rows for an organization, to every store the others may leave meanwhile. -/
structure AddingOk (aspects : Aspect → Prop) (quota : Nat) (organizationOf : String → String) (organizationId : String)
    (held : List AttachmentLock) (own : AttachmentStore → AttachmentStore) (s : AttachmentStore) : Prop where
  mono : ∀ a b, NoGrowth organizationId a b → NoGrowth organizationId (own a) (own b)
  adding : ∀ t, Later aspects quota organizationOf held s t → Adding aspects quota organizationOf organizationId held t (own t)

variable {organizationId : String}

/-- A transaction that has added nothing yet. -/
theorem addingOk_id (organizationId : String) (held : List AttachmentLock) (s : AttachmentStore) :
    AddingOk aspects quota organizationOf organizationId held id s where
  mono _ _ h := h
  adding _ ht := ⟨ht.inv, fun _ => .inl rfl, fun _ _ => .inl fun h => h, fun _ => .inl rfl, rfl⟩

/-- Adding goes on under more locks, on a later store. -/
theorem AddingOk.later {held' : List AttachmentLock} (h : AddingOk aspects quota organizationOf organizationId held own s)
    (ht : Later aspects quota organizationOf held s t) (hsub : held ⊆ held') :
    AddingOk aspects quota organizationOf organizationId held' own t where
  mono := h.mono
  adding u hu := by
    have hadding := h.adding u (ht.trans (hu.subset hsub))
    refine ⟨hadding.inv, fun k => ?_, fun kind k => ?_, fun k => ?_, hadding.messages⟩
    · exact (hadding.rows k).imp_right fun ⟨hquota, hrow, hrest⟩ => ⟨hsub hquota, hsub hrow, hrest⟩
    · exact (hadding.references kind k).imp_right fun ⟨hrow, hnone⟩ => ⟨hsub hrow, hnone⟩
    · exact (hadding.resources k).imp_right fun hheld => hsub hheld

/-- What is shown of an organization has not grown when what is committed has not. -/
theorem AddingOk.noGrowth (h : AddingOk aspects quota organizationOf organizationId held own s)
    (hquota : .organizationQuota organizationId ∈ held) (ht : Later aspects quota organizationOf held s t) :
    NoGrowth organizationId (own s) (own t) :=
  h.mono s t (ht.protects _ hquota)

/-- A new row is not committed. -/
theorem Adding.lookup_eq_none {view : AttachmentStore} (h : Adding aspects quota organizationOf organizationId held t view)
    (hview : view.attachments.lookup key = none) : t.attachments.lookup key = none := by
  rcases h.rows key with hsame | ⟨_, _, hnone, _⟩
  · exact hsame ▸ hview
  · exact hnone

/-- A transaction that adds rows may commit. -/
theorem AddingOk.committable (h : AddingOk aspects quota organizationOf organizationId held own s) :
    Committable aspects quota organizationOf kinds held own s := by
  intro t ht
  have hadding := h.adding t ht
  have hkept : ∀ k row, t.attachments.lookup k = some row → (own t).attachments.lookup k = some row := by
    intro k row hrow
    rcases hadding.rows k with hsame | ⟨_, _, hnone, _⟩
    · exact hsame.trans hrow
    · rw [hnone] at hrow
      cases hrow
  refine ⟨guarantees_of_steps hadding.inv (fun k => ?_) (fun kind _ k => ?_) hadding.resources
    (fun _ => .inl (by rw [hadding.messages])), fun kind _ k row hrow _ => ⟨row, hkept k row hrow, fun h => h⟩,
    fun k row row' hrow hstate hrow' => ?_⟩
  · rcases hadding.rows k with hsame | ⟨hquota, hlock, hnone, howner, row, hrow, horg, hkey, hstate⟩
    · exact .inl hsame
    · refine .inr ⟨.inl hlock, fun row' organizationId' hrow' horg' => ?_, fun _ row' hrow' => ?_, fun _ _ row' hrow' => ?_,
        fun row' hrow' hkey' => ?_⟩ <;> obtain rfl : row = row' := Option.some.inj (hrow.symm.trans hrow')
      · obtain rfl : organizationId = organizationId' := Option.some.inj (horg.symm.trans horg')
        exact .inl hquota
      · rw [horg, howner]
      · exact .inr ⟨hkey, hstate⟩
      · exact absurd hkey hkey'
  · rcases hadding.references kind k with href | ⟨hlock, hnone⟩
    · exact .inl href
    · refine .inr ⟨.inl hlock, fun _ row hrow => ?_⟩
      rcases hadding.rows k with hsame | ⟨_, _, _, _, row', hrow', _, hkey, hstate⟩
      · rw [hsame, hnone] at hrow
        cases hrow
      · obtain rfl : row' = row := Option.some.inj (hrow'.symm.trans hrow)
        exact .inr ⟨hkey, hstate⟩
  · obtain rfl : row = row' := Option.some.inj ((hkept k row hrow).symm.trans hrow')
    exact samePublished_refl hstate

/-- A new row with a place for it. -/
structure NewRow (aspects : Aspect → Prop) (quota : Nat) (organizationOf : String → String) (organizationId key : String)
    (row : AttachmentRow) (view : AttachmentStore) : Prop where
  organization : row.organizationId = some organizationId
  owner : organizationOf key = organizationId
  objectKey : row.objectKey = none
  state : row.lifecycleState ≠ .deleting
  recorded : aspects .bytes → BytesRecorded row
  room : Room quota organizationId key row.sizeBytes view
  place : row.lifecycleState = .uploading →
    AssocList.total (uploadWeight organizationId row.uploadedBy) view.attachments + 1 ≤ maxConcurrentAttachmentUploadsPerCaller

/-- There is still a place for a new row when what is shown of its organization has not grown. -/
theorem NewRow.of_noGrowth (h : NewRow aspects quota organizationOf organizationId key row s)
    (hgrowth : NoGrowth organizationId s t) : NewRow aspects quota organizationOf organizationId key row t :=
  ⟨h.organization, h.owner, h.objectKey, h.state, h.recorded, h.room.of_noGrowth hgrowth, fun hup =>
    (Nat.add_le_add_right (hgrowth.total_le (organizationWeight_upload organizationId row.uploadedBy)) 1).trans (h.place hup)⟩

/-- A new row that is written under its lock is added. -/
theorem AddingOk.set (h : AddingOk aspects quota organizationOf organizationId held own s)
    (hquota : .organizationQuota organizationId ∈ held) (hlock : .row .update key ∈ held)
    (hnone : (own s).attachments.lookup key = none) (hnew : NewRow aspects quota organizationOf organizationId key row (own s))
    (hinv : StoreOk aspects quota s) :
    AddingOk aspects quota organizationOf organizationId held (fun store => setAttachment key row (own store)) s where
  mono a b hab := (h.mono a b hab).set key row
  adding t ht := by
    have hadding := h.adding t ht
    have hplace := hnew.of_noGrowth (h.noGrowth hquota ht)
    have hgone : t.attachments.lookup key = none :=
      (ht.protects _ hlock).1.trans ((h.adding s (.refl hinv)).lookup_eq_none hnone)
    refine ⟨⟨fun haspect => withinQuota_setAttachment (hadding.inv.quota haspect) hplace.organization hplace.room,
      fun haspect => uploadsWithinLimit_setAttachment (hadding.inv.uploads haspect) hplace.organization hplace.place,
      fun haspect k row' hrow' => ?_⟩, fun k => ?_,
      fun kind k => ?_, hadding.resources, hadding.messages⟩
    · rcases lookup_setAttachment hrow' with ⟨_, rfl⟩ | ⟨_, hrow'⟩
      · exact hplace.recorded haspect
      · exact hadding.inv.rows haspect k row' hrow'
    · by_cases hk : k = key
      · subst hk
        exact .inr ⟨hquota, hlock, hgone, hplace.owner, row, by simp [setAttachment], hplace.organization, hplace.objectKey,
          hplace.state⟩
      · simpa [setAttachment, AList.lookup_insert_ne hk] using hadding.rows k
    · exact (hadding.references kind k).imp_left fun href hview =>
        href ((referenced_congr (s := own t) (t := setAttachment key row (own t)) rfl rfl).mp hview)

/-- An insertion after the quota's check adds its row. -/
theorem ok_insertAttachment (h : AddingOk aspects quota organizationOf organizationId held own s)
    (hquota : .organizationQuota organizationId ∈ held) (hnew : NewRow aspects quota organizationOf organizationId key row (own s))
    {post : Except AttachmentError Unit → List AttachmentLock → (AttachmentStore → AttachmentStore) → AttachmentStore → Prop}
    (hok : ∀ t, Later aspects quota organizationOf held s t → t.attachments.lookup key = none →
      AddingOk aspects quota organizationOf organizationId (held ++ [.row .update key])
        (fun store => setAttachment key row (own store)) t →
      post (.ok ()) (held ++ [.row .update key]) (fun store => setAttachment key row (own store)) t)
    (herror : ∀ e held own t, post (.error e) held own t) :
    Ok aspects quota organizationOf kinds post (insertAttachment key row) held own s := by
  simp only [insertAttachment, Script.meets_bind, Script.meets_exec]
  intro t ht
  cases hview : attachmentWhere key (fun _ => true) (own t) with
  | some found => exact herror _ _ _ _
  | none =>
    rw [attachmentWhere_true] at hview
    have hlater := h.later ht (List.subset_append_left held [.row .update key])
    refine hok t ht ((h.adding t ht).lookup_eq_none hview)
      (hlater.set (List.mem_append_left _ hquota) (List.mem_append_right _ (List.mem_singleton_self _)) hview
      (hnew.of_noGrowth (h.noGrowth hquota ht)) ht.inv)

/-- The lock of the quota, the usage and the check: after them there is room for a row of so many bytes. -/
theorem ok_assertOrganizationQuota (key : String) {excludeId : Option String} {bytes : Nat}
    (hexclude : excludeId = none ∨ excludeId = some key)
    {post : Except AttachmentError Unit → List AttachmentLock → (AttachmentStore → AttachmentStore) → AttachmentStore → Prop}
    (hok : ∀ t, Later aspects quota organizationOf held s t → Room quota organizationId key bytes (own t) → post (.ok ()) held own t)
    (herror : ∀ e held own t, post (.error e) held own t) :
    Ok aspects quota organizationOf kinds post (assertOrganizationQuota quota organizationId excludeId 1 bytes) held own s := by
  simp only [assertOrganizationQuota, Script.meets_bind, Script.meets_read]
  intro t ht
  simp only [Script.meets_onOk_ok, Script.meets_check]
  cases hcheck : checkUsage quota 1 bytes (organizationUsage organizationId excludeId (own t)) with
  | error e => exact herror e _ _ _
  | ok u => exact hok t ht (room_of_checkUsage hexclude hcheck)

/-! ## Uploads -/

/-- A body that is read is within the limit of an attachment. -/
theorem readChunks_length {chunks : List (List UInt8)} {bytes result : List UInt8} (hbytes : bytes.length ≤ maxAttachmentBytes)
    (h : readChunks chunks bytes = .ok result) : result.length ≤ maxAttachmentBytes := by
  induction chunks generalizing bytes with
  | nil =>
    obtain rfl := Except.ok.inj h
    exact hbytes
  | cons chunk chunks ih =>
    simp only [readChunks] at h
    split at h
    · cases h
    · next hlimit => exact ih (not_lt.mp hlimit) h

/-- What `readAttachmentBody` returns is within the limit, and as long as it was said to be. -/
theorem readAttachmentBody_ok {body : Body} {contentLength : Option Int} {bytes : List UInt8}
    (h : readAttachmentBody body contentLength = .ok bytes) :
    bytes.length ≤ maxAttachmentBytes ∧ ∀ n, contentLength = some n → n = bytes.length := by
  unfold readAttachmentBody at h
  cases hchunks : readChunks body.chunks [] with
  | error e =>
    rw [hchunks] at h
    cases h
  | ok read =>
    rw [hchunks] at h
    simp only [bind, Except.bind] at h
    split at h
    · cases h
    · split at h
      · cases h
      · split at h
        · cases h
        · next hlength =>
          obtain rfl := Except.ok.inj h
          refine ⟨readChunks_length (Nat.zero_le _) hchunks, fun n hn => ?_⟩
          by_contra hne
          exact hlength ⟨by simp [hn], by simpa [hn] using hne⟩

/-- A failed upload touches nothing but its own reservation, which no reference of the kinds protects, and ends with an error. -/
theorem ok_abandonReservation (hkinds : ∀ kind, ¬ kinds kind) (key message : String) (error : AttachmentError) (s : AttachmentStore) :
    Ok aspects quota organizationOf kinds (fun r _ _ _ => ∃ e, r = .error e)
      (abandonReservation (α := α) key message error) [] id s := by
  unfold abandonReservation
  simp only [Script.meets_bind, Script.meets_tryCatch, Script.meets_transaction]
  refine ok_deleteAttachment (fun _ _ _ _ _ kind hkind => absurd hkind (hkinds kind)) fun held own t hcommit => ?_
  simp only [Script.meets_onOk_ok, Script.meets_mayFail]
  exact ⟨ends_ok hcommit fun _ _ => ⟨error, rfl⟩, ⟨_, rfl⟩⟩

/-- The row of an identifier is of the organization the identifier is for, once it has been written. -/
theorem ownedBy_set (key : String) (row : AttachmentRow) (s : AttachmentStore) (h : row.organizationId = some (organizationOf key)) :
    OwnedBy organizationOf key (setAttachment key row s) := by
  intro row' hrow'
  rcases lookup_setAttachment hrow' with ⟨_, rfl⟩ | ⟨hne, _⟩
  · exact h
  · exact absurd rfl hne

/-- The published row of an upload. -/
theorem committable_publish {bytes : List UInt8} {now : Int} {input : CreateAttachmentInput} (hkinds : ∀ kind, ¬ kinds kind)
    (howner : organizationOf input.id = input.organizationId) (howned : OwnedBy organizationOf input.id s)
    (hrow : s.attachments.lookup input.id = some row) (hup : row.lifecycleState = .uploading)
    (hlength : bytes.length ≤ maxAttachmentBytes) (hquota : .organizationQuota input.organizationId ∈ held)
    (hlock : .row .noKeyUpdate input.id ∈ held) (hroom : Room quota input.organizationId input.id bytes.length s) :
    Committable aspects quota organizationOf kinds held
      (setAttachment input.id
        { row with data := some bytes, lifecycleState := .ready, sizeBytes := bytes.length, updatedAt := now }) s := by
  intro t ht
  have hrow' : t.attachments.lookup input.id = some row := (ht.protects _ hlock).trans hrow
  have horg : row.organizationId = some input.organizationId := howner ▸ ht.always.owned input.id howned row hrow'
  have hroom' := hroom.of_noGrowth (ht.protects _ hquota)
  refine ⟨guarantees_of_steps ⟨fun haspect => withinQuota_setAttachment (ht.inv.quota haspect) horg hroom',
      fun haspect => uploadsWithinLimit_setAttachment (ht.inv.uploads haspect) horg (fun h => by cases h),
      fun haspect k row₁ hrow₁ => ?_⟩ (fun k => ?_)
    (fun _ _ _ => .inl (referenced_congr (s := t) (t := setAttachment _ _ t) rfl rfl).mp) (fun _ => .inl rfl) (fun _ => .inl rfl),
    fun kind hkind => absurd hkind (hkinds kind), fun k row₁ row₂ hrow₁ hstate hrow₂ => ?_⟩
  · rcases lookup_setAttachment hrow₁ with ⟨_, rfl⟩ | ⟨_, hrow₁⟩
    · exact ⟨fun _ h => by rw [← Option.some.inj h], hlength, fun _ => .inl rfl⟩
    · exact ht.inv.rows haspect k row₁ hrow₁
  · by_cases hk : k = input.id
    · subst hk
      refine .inr ⟨.inr ⟨hlock, fun row₁ hrow₁ hready => ?_⟩, fun row₁ organizationId hrow₁ horg₁ => ?_, fun _ row₁ hrow₁ => ?_,
        fun kind hreleased row₁ hrow₁ => ?_, fun row₁ hrow₁ _ => ?_⟩
      · obtain rfl : row = row₁ := Option.some.inj (hrow'.symm.trans hrow₁)
        rw [hup] at hready
        cases hready
      all_goals obtain rfl := Option.some.inj ((AList.lookup_insert _).symm.trans hrow₁)
      · obtain rfl : input.organizationId = organizationId := Option.some.inj (horg.symm.trans horg₁)
        exact .inl hquota
      · exact howner ▸ horg
      · rcases hreleased row hrow' with ⟨hdeleting, _⟩ | ⟨hkey, _⟩
        · rw [hup] at hdeleting
          cases hdeleting
        · exact .inr ⟨hkey, (fun h => by cases h)⟩
      · exact ⟨row, hrow', rfl, fun h => absurd hup h⟩
    · exact .inl (AList.lookup_insert_ne hk)
  · rcases lookup_setAttachment hrow₂ with ⟨rfl, _⟩ | ⟨_, hrow₂⟩
    · obtain rfl : row = row₁ := Option.some.inj (hrow'.symm.trans hrow₁)
      exact absurd hup hstate
    · obtain rfl : row₁ = row₂ := Option.some.inj (hrow₁.symm.trans hrow₂)
      exact samePublished_refl hstate

/-- A valid length is within the limit of an attachment. -/
theorem reservedBytes_le {input : CreateAttachmentInput} {u : Unit} (h : validateCreateInput input = .ok u) :
    (input.contentLength.map Int.toNat).getD maxAttachmentBytes ≤ maxAttachmentBytes := by
  unfold validateCreateInput at h
  split at h
  · cases h
  · split at h
    · cases h
    · split at h
      · cases h
      · cases hlength : input.contentLength with
        | none => exact le_rfl
        | some n =>
          rw [hlength] at h
          dsimp only at h
          split at h
          · cases h
          · split at h
            · cases h
            · next hlimit =>
              simp only [Option.map_some, Option.getD_some]
              omega

/-- After the check of a caller's uploads there is a place for one more. -/
theorem ok_assertCallerUploadConcurrency {uploadedBy : String}
    {post : Except AttachmentError Unit → List AttachmentLock → (AttachmentStore → AttachmentStore) → AttachmentStore → Prop}
    (hok : ∀ t, Later aspects quota organizationOf held s t →
      AssocList.total (uploadWeight organizationId uploadedBy) (own t).attachments + 1 ≤ maxConcurrentAttachmentUploadsPerCaller →
      post (.ok ()) held own t)
    (herror : ∀ e held own t, post (.error e) held own t) :
    Ok aspects quota organizationOf kinds post (assertCallerUploadConcurrency organizationId uploadedBy) held own s := by
  simp only [assertCallerUploadConcurrency, Script.meets_bind, Script.meets_read]
  intro t ht
  simp only [Script.meets_onOk_ok, Script.meets_check]
  split
  · exact herror _ _ _ _
  · next hlimit =>
    refine hok t ht ?_
    rw [activeUploads_eq] at hlimit
    omega

/-- The reservation of an upload leaves its row, if it leaves one, with its organization. -/
theorem ok_reserve {now : Int} {input : CreateAttachmentInput} {reservedBytes : Nat}
    (howner : organizationOf input.id = input.organizationId) (hbytes : reservedBytes ≤ maxAttachmentBytes) (s : AttachmentStore)
    {post : Except AttachmentError Unit → List AttachmentLock → (AttachmentStore → AttachmentStore) → AttachmentStore → Prop}
    (hok : ∀ t, OwnedBy organizationOf input.id t → post (.ok ()) [] id t) (herror : ∀ e t, post (.error e) [] id t) :
    Ok aspects quota organizationOf kinds (Ends aspects quota organizationOf kinds post) (do
      lockOrganizationAttachmentQuota input.organizationId
      assertCallerUploadConcurrency input.organizationId input.uploadedBy
      assertOrganizationQuota quota input.organizationId none 1 reservedBytes
      insertAttachment input.id
        { organizationId := some input.organizationId, objectKey := none, lifecycleState := .uploading
          mimeType := MessagePreflight.trim input.mimeType, filename := MessagePreflight.trim input.filename
          sizeBytes := reservedBytes, data := none, uploadedBy := input.uploadedBy, createdAt := now, updatedAt :=
            now }) [] id s := by
  simp only [Script.meets_bind, lockOrganizationAttachmentQuota, Script.meets_lockAndRead, Script.meets_onOk_ok]
  intro t₁ ht₁
  have hquota : AttachmentLock.organizationQuota input.organizationId ∈ [] ++
      [AttachmentLock.organizationQuota input.organizationId] := by
    simp
  have herrors : ∀ e held own t, Ends aspects quota organizationOf kinds post (.error e) held own t := fun e _ _ t => herror e t
  refine ok_assertCallerUploadConcurrency (fun t₂ ht₂ hplace => ?_) herrors
  simp only [Script.meets_onOk_ok, Script.meets_bind]
  refine ok_assertOrganizationQuota input.id (.inl rfl) (fun t₃ ht₃ hroom => ?_) herrors
  simp only [Script.meets_onOk_ok]
  have hgrowth : NoGrowth input.organizationId t₂ t₃ := ht₃.protects _ hquota
  refine ok_insertAttachment (addingOk_id input.organizationId _ t₃) hquota ⟨rfl, howner, rfl, (fun h => by cases h),
    fun _ => ⟨(fun _ h => by cases h), hbytes, (fun h => by cases h)⟩, hroom, fun _ => ?_⟩ (fun t₄ _ _ hadding => ?_) herrors
  · exact (Nat.add_le_add_right (hgrowth.total_le (organizationWeight_upload input.organizationId input.uploadedBy)) 1).trans hplace
  · exact ends_ok hadding.committable fun t _ => hok _ (ownedBy_set input.id _ t (howner ▸ rfl))

/-- An upload meets the discipline. -/
theorem ok_createAttachment {now : Int} {input : CreateAttachmentInput} (hkinds : ∀ kind, ¬ kinds kind)
    (howner : organizationOf input.id = input.organizationId) (s : AttachmentStore) :
    Ok aspects quota organizationOf kinds (fun _ _ _ _ => True) (createAttachment quota now input) [] id s := by
  unfold createAttachment
  simp only [Script.meets_bind, Script.meets_check]
  cases hvalid : validateCreateInput input with
  | error e => exact trivial
  | ok u =>
    simp only [Script.meets_onOk_ok, Script.meets_bind, Script.meets_transaction]
    refine ok_reserve howner (reservedBytes_le hvalid) s (fun t₁ howned₁ => ?_) fun _ _ => trivial
    simp only [Script.meets_onOk_ok, Script.meets_tryCatch, Script.meets_bind, Script.meets_check]
    cases hbody : readAttachmentBody input.body input.contentLength with
    | error e =>
      refine (ok_abandonReservation hkinds input.id _ e t₁).mono fun r held own t hr => ?_
      obtain ⟨e', rfl⟩ := hr
      exact trivial
    | ok bytes =>
      obtain ⟨hlength, _⟩ := readAttachmentBody_ok hbody
      simp only [Script.meets_onError_ok, Script.meets_onOk_ok, Script.meets_tryCatch, Script.meets_bind, Script.meets_transaction,
        lockOrganizationAttachmentQuota, Script.meets_lockAndRead]
      intro t₂ ht₂
      -- Every error of the publication ends in the deletion of the reservation.
      have habandon : ∀ e t, Ok aspects quota organizationOf kinds (fun _ _ _ _ => True)
          (abandonReservation (α := AttachmentRow) input.id "Attachment publish and reservation cleanup both failed" e) [] id t :=
        fun e t => (ok_abandonReservation hkinds input.id _ e t).mono fun _ _ _ _ _ => trivial
      refine ok_assertOrganizationQuota input.id (.inr rfl) (fun t₃ ht₃ hroom => ?_) fun e _ _ t => ?_
      · simp only [updateAttachment, Script.meets_onOk_ok, Script.meets_bind, Script.meets_exec]
        intro t₄ ht₄
        cases hview : attachmentWhere input.id isUploading (id t₄) with
        | none => exact Script.meets_mayFail.mpr ⟨habandon _ t₄, habandon _ t₄⟩
        | some row =>
          obtain ⟨hrow, hup⟩ := attachmentWhere_eq_some.mp hview
          have howned₄ : OwnedBy organizationOf input.id t₄ :=
            ht₄.always.owned _ (ht₃.always.owned _ (ht₂.always.owned _ howned₁))
          have hroom₄ : Room quota input.organizationId input.id bytes.length t₄ :=
            hroom.of_noGrowth (ht₄.protects (.organizationQuota input.organizationId) (by simp))
          refine Script.meets_mayFail.mpr ⟨ends_ok (committable_publish hkinds howner howned₄ hrow (of_decide_eq_true hup) hlength
            (by simp) (List.mem_append_right _ (List.mem_singleton_self _)) hroom₄) fun _ _ => trivial, habandon _ t₄⟩
      · exact habandon e t

/-! ## Copies -/

/-- The bytes of a source that is recorded are within the limit of an attachment. -/
theorem sourceBytes_length {source : AttachmentRow} {legacyBody : Body} {bytes : List UInt8} (hrecorded : BytesRecorded source)
    (h : sourceBytes source legacyBody = .ok bytes) : bytes.length ≤ maxAttachmentBytes := by
  unfold sourceBytes at h
  split at h
  · next data hdata =>
    split at h
    · cases h
    · obtain rfl := Except.ok.inj h
      exact (hrecorded.length data hdata).le.trans hrecorded.limit
  · split at h
    · exact (readAttachmentBody_ok h).1
    · cases h

/-- A source that a copy accepts is a row that was found. -/
theorem checkSource_ok {found : Option AttachmentRow} {legacyBody : Body} {source : AttachmentRow} {bytes : List UInt8}
    (h : checkSource found legacyBody = .ok (source, bytes)) : found = some source ∧ sourceBytes source legacyBody = .ok bytes := by
  unfold checkSource at h
  split at h
  · cases h
  · next row hrow =>
    cases hbytes : sourceBytes row legacyBody with
    | error e =>
      rw [hbytes] at h
      cases h
    | ok read =>
      rw [hbytes] at h
      obtain ⟨rfl, rfl⟩ := Prod.mk.inj (Except.ok.inj h)
      exact ⟨(Option.filter_eq_some_iff.mp hrow).1, hbytes⟩

/-- A copy in a transaction that adds rows for its organization adds one. -/
theorem ok_copyAttachmentForOrganization {now : Int} {copy : BundleCopy} {uploadedBy : String}
    (h : AddingOk aspects quota organizationOf organizationId held own s) (howner : organizationOf copy.id = organizationId)
    {post : Except AttachmentError Unit → List AttachmentLock → (AttachmentStore → AttachmentStore) → AttachmentStore → Prop}
    (hok : ∀ held' own' t, Later aspects quota organizationOf held s t → held ⊆ held' → .row .update copy.id ∈ held' →
      t.attachments.lookup copy.id = none → AddingOk aspects quota organizationOf organizationId held' own' t →
        post (.ok ()) held' own' t)
    (herror : ∀ e held own t, post (.error e) held own t) :
    Ok aspects quota organizationOf kinds post
      (copyAttachmentForOrganization quota now copy organizationId uploadedBy) held own s := by
  unfold copyAttachmentForOrganization
  simp only [Script.meets_bind, lockOrganizationAttachmentQuota, selectFor, Script.meets_lockAndRead, Script.meets_onOk_ok,
    Script.meets_check]
  intro t₁ ht₁ t₂ ht₂
  set held₂ := held ++ [AttachmentLock.organizationQuota organizationId] ++
    lockFound .update copy.sourceId (attachmentWhere copy.sourceId (fun _ => true) (own t₂)) with hheld₂
  have hsub : held ⊆ held₂ := fun l hl => List.mem_append_left _ (List.mem_append_left _ hl)
  have hquota : AttachmentLock.organizationQuota organizationId ∈ held₂ := List.mem_append_left _ (by simp)
  have hlater₂ : Later aspects quota organizationOf held s t₂ := ht₁.trans (ht₂.subset (List.subset_append_left _ _))
  have hadding := h.later hlater₂ hsub
  cases hsource : checkSource (attachmentWhere copy.sourceId (fun _ => true) (own t₂)) copy.legacyBody with
  | error e => exact herror e _ _ _
  | ok read =>
    obtain ⟨source, bytes⟩ := read
    obtain ⟨hfound, hbytes⟩ := checkSource_ok hsource
    have hlength : aspects .bytes → bytes.length ≤ maxAttachmentBytes := fun haspect =>
      sourceBytes_length ((h.adding t₂ hlater₂).inv.rows haspect copy.sourceId source (attachmentWhere_eq_some.mp hfound).1) hbytes
    simp only [Script.meets_onOk_ok, Script.meets_bind]
    refine ok_assertOrganizationQuota copy.id (.inl rfl) (fun t₃ ht₃ hroom => ?_) fun e _ _ t => herror e _ _ _
    simp only [Script.meets_onOk_ok]
    refine ok_insertAttachment (hadding.later ht₃ (List.Subset.refl _)) hquota ⟨rfl, howner, rfl, (fun h => by cases h),
      fun haspect => ⟨fun _ hdata => by rw [← Option.some.inj hdata], hlength haspect, fun _ => .inl rfl⟩, hroom,
        fun hup => by cases hup⟩
      (fun t₄ ht₄ hnone hadding₄ => ?_) herror
    exact hok _ _ _ (hlater₂.trans ((ht₃.subset hsub).trans (ht₄.subset hsub)))
      (fun l hl => List.mem_append_left _ (hsub hl)) (List.mem_append_right _ (List.mem_singleton_self _)) hnone hadding₄

/-! ## Bundles of resources -/

/-- A resource that is bound to an attachment makes no other reference. -/
theorem referenced_insertResource {kind : ReferenceKind} {k resourceId attachmentId : String} {resource : BundleResource}
    {s : AttachmentStore} (hbundle : resource.bundleAttachmentId = some attachmentId)
    (h : Referenced kind k { s with resources := s.resources.insert resourceId resource }) :
    Referenced kind k s ∨ kind = .bundle ∧ k = attachmentId := by
  cases kind with
  | message => exact .inl h
  | bundle =>
    obtain ⟨id, row, hrow, href⟩ := h
    by_cases hid : id = resourceId
    · subst hid
      simp only [AList.lookup_insert, Option.some.injEq] at hrow
      subst hrow
      exact .inr ⟨rfl, Option.some.inj (href.symm.trans hbundle)⟩
    · simp only [AList.lookup_insert_ne hid] at hrow
      exact .inl ⟨id, row, hrow, href⟩

/-- A resource that is bound to a row the transaction has added is part of what it adds. -/
theorem AddingOk.bind {resourceId attachmentId : String} {resource : BundleResource}
    (h : AddingOk aspects quota organizationOf organizationId held own s) (hbundle : resource.bundleAttachmentId = some attachmentId)
    (hlock : .row .update attachmentId ∈ held) (hresource : .resource resourceId ∈ held)
    (hnone : s.attachments.lookup attachmentId = none) :
    AddingOk aspects quota organizationOf organizationId held
      (fun store => { own store with resources := (own store).resources.insert resourceId resource }) s where
  mono := h.mono
  adding t ht := by
    have hadding := h.adding t ht
    have hgone : t.attachments.lookup attachmentId = none := (ht.protects _ hlock).1.trans hnone
    refine ⟨⟨hadding.inv.quota, hadding.inv.uploads, hadding.inv.rows⟩, hadding.rows, fun kind k => ?_, fun k => ?_, hadding.messages⟩
    · by_cases hk : kind = .bundle ∧ k = attachmentId
      · obtain ⟨_, rfl⟩ := hk
        exact .inr ⟨hlock, hgone⟩
      · refine (hadding.references kind k).imp_left fun href hview => ?_
        rcases referenced_insertResource hbundle hview with hview | hview
        · exact href hview
        · exact absurd hview hk
    · by_cases hk : k = resourceId
      · subst hk
        exact .inr hresource
      · simpa [AList.lookup_insert_ne hk] using hadding.resources k

/-- The import of a component binds its resource to the copy of its bundle. -/
theorem ok_importTemplateComponents {copies : List BundleCopy} {component : String × String}
    (h : AddingOk aspects quota organizationOf organizationId held own s)
    (hcopies : ∀ copy ∈ copies, .row .update copy.id ∈ held ∧ s.attachments.lookup copy.id = none)
    {post : Except AttachmentError Unit → List AttachmentLock → (AttachmentStore → AttachmentStore) → AttachmentStore → Prop}
    (hok : ∀ held' own' t, AddingOk aspects quota organizationOf organizationId held' own' t →
      (∀ copy ∈ copies, .row .update copy.id ∈ held' ∧ t.attachments.lookup copy.id = none) → post (.ok ()) held' own' t)
    (herror : ∀ e held own t, post (.error e) held own t) :
    Ok aspects quota organizationOf kinds post
      (importTemplateComponents organizationId (copies.map fun copy => (copy.sourceId, copy.id)) component) held own s := by
  unfold importTemplateComponents
  simp only [Script.meets_bind, Script.meets_check]
  cases htarget : (copies.map fun copy => (copy.sourceId, copy.id)).lookup component.2 with
  | none => exact herror _ _ _ _
  | some target =>
    obtain ⟨l₁, l₂, hsplit, _⟩ := List.lookup_eq_some_iff.mp htarget
    have hmem : (component.2, target) ∈ copies.map fun copy => (copy.sourceId, copy.id) := hsplit ▸ by simp
    obtain ⟨copy, hcopy, heq⟩ := List.mem_map.mp hmem
    obtain rfl : copy.id = target := congrArg Prod.snd heq
    simp only [Script.meets_onOk_ok, insertResource, Script.meets_bind, Script.meets_exec]
    intro t ht
    have hlater := h.later ht (List.subset_append_left held [.resource component.1])
    have hcopies' : ∀ copy ∈ copies, .row .update copy.id ∈ held ++ [AttachmentLock.resource component.1] ∧
        t.attachments.lookup copy.id = none := fun c hc =>
      ⟨List.mem_append_left _ (hcopies c hc).1, (ht.protects _ (hcopies c hc).1).1.trans (hcopies c hc).2⟩
    cases hfound : (own t).resources.lookup component.1 with
    | some row => exact herror _ _ _ _
    | none =>
      exact hok _ _ _ (hlater.bind rfl (hcopies' copy hcopy).1 (List.mem_append_right _ (List.mem_singleton_self _))
        (hcopies' copy hcopy).2) hcopies'

/-- An adoption of templates meets the discipline. -/
theorem ok_adoptTemplates {now : Int} {uploadedBy : String} {copies : List BundleCopy} {components : List (String × String)}
    (howner : ∀ copy ∈ copies, organizationOf copy.id = organizationId) (s : AttachmentStore) :
    Ok aspects quota organizationOf kinds (fun _ _ _ _ => True)
      (adoptTemplates quota now organizationId uploadedBy copies components) [] id s := by
  simp only [adoptTemplates, Script.meets_transaction, Script.meets_bind]
  -- The copies made so far are new rows under their locks.
  refine Script.meets_forEach (I := fun made held own s => AddingOk aspects quota organizationOf organizationId held own s ∧
    ∀ copy ∈ made, .row .update copy.id ∈ held ∧ s.attachments.lookup copy.id = none) ?_ ?_ ⟨addingOk_id organizationId [] s, by simp⟩
  · rintro made copy rest rfl held own s ⟨hadding, hmade⟩
    refine ok_copyAttachmentForOrganization hadding (howner copy (by simp)) (fun held' own' t ht hsub hlock hnone hadding' => ?_)
      fun _ _ _ _ => trivial
    refine ⟨hadding', fun c hc => ?_⟩
    rcases List.mem_append.mp hc with hc | hc
    · exact ⟨hsub (hmade c hc).1, (ht.protects _ (hmade c hc).1).1.trans (hmade c hc).2⟩
    · obtain rfl := List.mem_singleton.mp hc
      exact ⟨hlock, hnone⟩
  · rintro held own s ⟨hadding, hmade⟩
    simp only [Script.meets_onOk_ok, Script.meets_bind]
    refine Script.meets_forEach (I := fun _ held own s => AddingOk aspects quota organizationOf organizationId held own s ∧
      ∀ copy ∈ copies, .row .update copy.id ∈ held ∧ s.attachments.lookup copy.id = none) ?_ ?_ ⟨hadding, hmade⟩
    · rintro _ component _ _ held own s ⟨hadding, hmade⟩
      exact ok_importTemplateComponents hadding hmade (fun _ _ _ hadding' hmade' => ⟨hadding', hmade'⟩) fun _ _ _ _ => trivial
    · rintro held own s ⟨hadding, _⟩
      exact Script.meets_mayFail.mpr ⟨ends_ok hadding.committable fun _ _ => trivial, trivial⟩

/-- A reference that is made to a row that is ready and locked is as it may be. -/
theorem referenceStep_ready {kind : ReferenceKind} {s t : AttachmentStore}
    (hlock : .row .update key ∈ held ∨ .row .keyShare key ∈ held) (hrow : s.attachments.lookup key = some row)
    (hready : row.lifecycleState = .ready) (hsame : t.attachments.lookup key = s.attachments.lookup key) :
    ReferenceStep held kind key s t where
  locked := hlock
  released hreleased row' hrow' := by
    obtain rfl : row = row' := Option.some.inj (hrow.symm.trans (hsame ▸ hrow'))
    rcases hreleased row hrow with ⟨hdeleting, _⟩ | hfresh
    · rw [hready] at hdeleting
      cases hdeleting
    · exact .inr hfresh

/-- The binding of a resource to a locked row that is ready may commit. -/
theorem committable_bind {resourceId : String} {resource : BundleResource} (hrow : s.attachments.lookup key = some row)
    (hready : row.lifecycleState = .ready) (hlock : .row .update key ∈ held) (hresource : .resource resourceId ∈ held)
    (hbundle : resource.bundleAttachmentId = some key) :
    Committable aspects quota organizationOf kinds held
      (fun store => { store with resources := store.resources.insert resourceId resource }) s := by
  intro t ht
  have hrow' : t.attachments.lookup key = some row := (ht.protects _ hlock).1.trans hrow
  refine ⟨guarantees_of_steps ⟨ht.inv.quota, ht.inv.uploads, ht.inv.rows⟩ (fun _ => .inl rfl) (fun kind _ k => ?_) (fun k => ?_)
    fun _ => .inl rfl, good_of_sameRows kinds rfl⟩
  · by_cases hk : kind = .bundle ∧ k = key
    · obtain ⟨_, rfl⟩ := hk
      exact .inr (referenceStep_ready (.inl hlock) hrow' hready rfl)
    · refine .inl fun hview => ?_
      rcases referenced_insertResource hbundle hview with hview | hview
      · exact hview
      · exact absurd hview hk
  · by_cases hk : k = resourceId
    · subst hk
      exact .inr hresource
    · exact .inl (AList.lookup_insert_ne hk)

/-- After `lockReadySkillBundle` the bundle is a locked row that is ready. -/
theorem ok_lockReadySkillBundle (organizationId key : String) (s : AttachmentStore)
    {post : Except AttachmentError Unit → List AttachmentLock → (AttachmentStore → AttachmentStore) → AttachmentStore → Prop}
    (hok : ∀ t row, t.attachments.lookup key = some row → row.lifecycleState = .ready → post (.ok ()) [.row .update key] id t)
    (herror : ∀ e held own t, post (.error e) held own t) :
    Ok aspects quota organizationOf kinds post (lockReadySkillBundle organizationId key) [] id s := by
  simp only [lockReadySkillBundle, selectFor, Script.meets_bind, Script.meets_lockAndRead, Script.meets_onOk_ok, Script.meets_check]
  intro t ht
  cases hfound : attachmentWhere key (fun row => decide (row.organizationId = some organizationId ∧ row.lifecycleState = .ready))
      (id t) with
  | none => exact herror _ _ _ _
  | some row =>
    obtain ⟨hrow, hcondition⟩ := attachmentWhere_eq_some.mp hfound
    exact hok t row hrow (of_decide_eq_true hcondition).2

/-- A new resource with a bundle meets the discipline. -/
theorem ok_createTeamResource (resourceId organizationId bundleAttachmentId : String) (s : AttachmentStore) :
    Ok aspects quota organizationOf kinds (fun _ _ _ _ => True)
      (createTeamResource resourceId organizationId bundleAttachmentId) [] id s := by
  simp only [createTeamResource, Script.meets_transaction, Script.meets_bind]
  refine ok_lockReadySkillBundle organizationId bundleAttachmentId s (fun t row hrow hready => ?_) fun _ _ _ _ => trivial
  simp only [Script.meets_onOk_ok, Script.meets_bind]
  refine Script.meets_mayFail.mpr ⟨?_, trivial⟩
  simp only [Script.meets_onOk_ok, insertResource, Script.meets_bind, Script.meets_exec]
  intro u hu
  have hrow' : u.attachments.lookup bundleAttachmentId = some row := (hu.protects _ (List.mem_singleton_self _)).1.trans hrow
  cases hfound : (id u).resources.lookup resourceId with
  | some found => exact trivial
  | none => exact ends_ok (committable_bind hrow' hready (by simp) (by simp) rfl) fun _ _ => trivial

/-! ## Messages -/

/-- A message that is written makes no reference but those of its attachments. -/
theorem referenced_insertMessage {kind : ReferenceKind} {k messageId : String} {refs : MessageRefs} {s : AttachmentStore}
    (h : Referenced kind k { s with messages := s.messages.insert messageId refs }) :
    Referenced kind k s ∨ kind = .message ∧ k ∈ refs.attachments := by
  cases kind with
  | bundle => exact .inl h
  | message =>
    obtain ⟨id, refs', hrefs', hmem⟩ := h
    by_cases hid : id = messageId
    · subst hid
      simp only [AList.lookup_insert, Option.some.injEq] at hrefs'
      subst hrefs'
      exact .inr ⟨rfl, hmem⟩
    · simp only [AList.lookup_insert_ne hid] at hrefs'
      exact .inl ⟨id, refs', hrefs', hmem⟩

/-- The attachment is a locked row that is ready. -/
def SharedReady (held : List AttachmentLock) (key : String) (s : AttachmentStore) : Prop :=
  .row .keyShare key ∈ held ∧ ∃ row, s.attachments.lookup key = some row ∧ row.lifecycleState = .ready

/-- A locked row that is ready stays so. -/
theorem SharedReady.later {held' : List AttachmentLock} (h : SharedReady held key s)
    (ht : Later aspects quota organizationOf held s t) (hsub : held ⊆ held') : SharedReady held' key t := by
  obtain ⟨hlock, row, hrow, hready⟩ := h
  exact ⟨hsub hlock, ht.protects _ hlock row hrow hready⟩

/-- A message whose attachments are locked rows that are ready, or were its own before, may be committed. -/
theorem committable_message {messageId : String} {refs : MessageRefs} (hlock : .message messageId ∈ held)
    (hrefs : ∀ k ∈ refs.attachments, SharedReady held k s ∨
      ∃ previous, s.messages.lookup messageId = some previous ∧ k ∈ previous.attachments) :
    Committable aspects quota organizationOf kinds held
      (fun store => { store with messages := store.messages.insert messageId refs }) s := by
  intro t ht
  refine ⟨guarantees_of_steps ⟨ht.inv.quota, ht.inv.uploads, ht.inv.rows⟩ (fun _ => .inl rfl) (fun kind _ k => ?_) (fun _ => .inl rfl)
    fun k => ?_, good_of_sameRows kinds rfl⟩
  · by_cases hk : kind = .message ∧ k ∈ refs.attachments
    · obtain ⟨rfl, hmem⟩ := hk
      rcases hrefs k hmem with hshared | ⟨previous, hprevious, hold⟩
      · obtain ⟨hheld, row, hrow, hready⟩ := hshared.later ht (List.Subset.refl _)
        exact .inr (referenceStep_ready (.inr hheld) hrow hready rfl)
      · exact .inl fun _ => ⟨messageId, previous, (ht.protects _ hlock).trans hprevious, hold⟩
    · refine .inl fun hview => ?_
      rcases referenced_insertMessage hview with hview | hview
      · exact hview
      · exact absurd hview hk
  · by_cases hk : k = messageId
    · subst hk
      exact .inr hlock
    · exact .inl (AList.lookup_insert_ne hk)

/-- A reference that is loaded is a locked row that is ready. -/
theorem ok_loadAttachmentMetaForReference (key : String)
    {post : Except AttachmentError (Option AttachmentRow) → List AttachmentLock → (AttachmentStore → AttachmentStore) →
      AttachmentStore → Prop}
    (hok : ∀ held' t row, Later aspects quota organizationOf held s t → held ⊆ held' → (row.isSome = true → SharedReady held' key t) →
      post (.ok row) held' id t) :
    Ok aspects quota organizationOf kinds post (loadAttachmentMetaForReference key) held id s := by
  simp only [loadAttachmentMetaForReference, selectFor, Script.meets_lockAndRead]
  intro t ht
  refine hok _ t _ ht (List.subset_append_left _ _) fun hsome => ?_
  obtain ⟨row, hfound⟩ := Option.isSome_iff_exists.mp hsome
  obtain ⟨hrow, havailable⟩ := attachmentWhere_eq_some.mp hfound
  refine ⟨List.mem_append_right _ ?_, row, hrow, of_decide_eq_true (Bool.and_eq_true_iff.mp havailable).1⟩
  rw [show attachmentWhere key isAvailable (id t) = some row from hfound]
  exact List.mem_singleton_self _

/-- The rows that are loaded are those of the references, each one locked and ready where there is one. -/
theorem ok_loadRefs (refs : List MessageAttachmentRef) (hinv : StoreOk aspects quota s)
    {post : Except AttachmentError (List (MessageAttachmentRef × Option AttachmentRow)) → List AttachmentLock →
      (AttachmentStore → AttachmentStore) → AttachmentStore → Prop}
    (hok : ∀ held' t rows, Later aspects quota organizationOf held s t → held ⊆ held' → rows.map Prod.fst = refs →
      (∀ row ∈ rows, row.2.isSome = true → SharedReady held' row.1.attachmentId t) → post (.ok rows) held' id t) :
    Ok aspects quota organizationOf kinds post (loadRefs refs) held id s := by
  induction refs generalizing held s post with
  | nil => exact hok held s [] (.refl hinv) (List.Subset.refl _) rfl (by simp)
  | cons ref refs ih =>
    simp only [loadRefs, Script.meets_bind]
    refine ok_loadAttachmentMetaForReference ref.attachmentId fun held₁ t₁ row ht₁ hsub₁ hrow => ?_
    simp only [Script.meets_onOk_ok, Script.meets_bind]
    refine ih ht₁.inv fun held₂ t₂ rows ht₂ hsub₂ hrows hready => ?_
    simp only [Script.meets_onOk_ok, Script.meets_pure]
    refine hok held₂ t₂ _ (ht₁.trans (ht₂.subset hsub₁)) (List.Subset.trans hsub₁ hsub₂) (by rw [List.map_cons, hrows])
      fun row' hmem hsome => ?_
    rcases List.mem_cons.mp hmem with rfl | hmem
    · exact (hrow hsome).later ht₂ hsub₂
    · exact hready row' hmem hsome

/-- Where each reference has passed its check, each has a row. -/
theorem isSome_of_forM {rows : List (MessageAttachmentRef × Option AttachmentRow)} {u : PUnit}
    (h : (rows.forM fun row => checkRef row.1 row.2) = .ok u) : ∀ row ∈ rows, row.2.isSome = true := by
  induction rows with
  | nil => simp
  | cons row rows ih =>
    change (checkRef row.1 row.2 >>= fun _ => rows.forM fun row => checkRef row.1 row.2) = .ok u at h
    cases hcheck : checkRef row.1 row.2 with
    | error e =>
      rw [hcheck] at h
      cases h
    | ok _ =>
      rw [hcheck] at h
      intro row' hmem
      rcases List.mem_cons.mp hmem with rfl | hmem
      · cases hrow : row'.2 with
        | none =>
          rw [hrow] at hcheck
          cases hcheck
        | some found => rfl
      · exact ih h row' hmem

/-- After `validateMessageAttachmentRefs` each reference is to a locked row that is ready. -/
theorem ok_validateMessageAttachmentRefs (refs : List MessageAttachmentRef) (hinv : StoreOk aspects quota s)
    {post : Except AttachmentError Unit → List AttachmentLock → (AttachmentStore → AttachmentStore) → AttachmentStore → Prop}
    (hok : ∀ held' t, Later aspects quota organizationOf held s t → held ⊆ held' →
      (∀ ref ∈ refs, SharedReady held' ref.attachmentId t) →
      post (.ok ()) held' id t) (herror : ∀ e held own t, post (.error e) held own t) :
    Ok aspects quota organizationOf kinds post (validateMessageAttachmentRefs refs) held id s := by
  simp only [validateMessageAttachmentRefs, Script.meets_bind, Script.meets_check]
  split
  · exact herror _ _ _ _
  · simp only [Script.meets_onOk_ok, Script.meets_bind]
    refine ok_loadRefs refs hinv fun held₁ t₁ rows ht₁ hsub₁ hrows hready => ?_
    simp only [Script.meets_onOk_ok, Script.meets_check]
    cases hcheck : rows.forM fun row => checkRef row.1 row.2 with
    | error e => exact herror e _ _ _
    | ok u =>
      refine hok held₁ t₁ ht₁ hsub₁ fun ref hmem => ?_
      obtain ⟨row, hrow, rfl⟩ := List.mem_map.mp (hrows ▸ hmem)
      exact hready row hrow (isSome_of_forM hcheck row hrow)

/-- `lockFileAttachmentRefsIfPresent` keeps what is locked. -/
theorem ok_lockFileAttachmentRefsIfPresent (ids : List String) (hinv : StoreOk aspects quota s)
    {post : Except AttachmentError Unit → List AttachmentLock → (AttachmentStore → AttachmentStore) → AttachmentStore → Prop}
    (hok : ∀ held' t, Later aspects quota organizationOf held s t → held ⊆ held' → post (.ok ()) held' id t) :
    Ok aspects quota organizationOf kinds post (lockFileAttachmentRefsIfPresent ids) held id s := by
  refine Script.meets_forEach (I := fun _ held' own t => own = id ∧ Later aspects quota organizationOf held s t ∧ held ⊆ held') ?_ ?_
    ⟨rfl, .refl hinv, List.Subset.refl _⟩
  · rintro _ key _ _ held₁ own t₁ ⟨rfl, ht₁, hsub₁⟩
    simp only [Script.meets_bind]
    refine ok_loadAttachmentMetaForReference key fun held₂ t₂ row ht₂ hsub₂ _ => ?_
    exact ⟨rfl, ht₁.trans (ht₂.subset hsub₁), List.Subset.trans hsub₁ hsub₂⟩
  · rintro held₁ own t₁ ⟨rfl, ht₁, hsub₁⟩
    exact hok held₁ t₁ ht₁ hsub₁

/-- A send meets the discipline. -/
theorem ok_sendMessage (messageId : String) (content : List String) (refs : List MessageAttachmentRef)
    (hinv : StoreOk aspects quota s) :
    Ok aspects quota organizationOf kinds (fun _ _ _ _ => True) (sendMessage messageId content refs) [] id s := by
  simp only [sendMessage, Script.meets_transaction, Script.meets_bind]
  refine ok_validateMessageAttachmentRefs refs hinv (fun held₁ t₁ ht₁ _ hready => ?_) fun _ _ _ _ => trivial
  simp only [Script.meets_onOk_ok, Script.meets_bind]
  refine ok_lockFileAttachmentRefsIfPresent content ht₁.inv fun held₂ t₂ ht₂ hsub₂ => ?_
  simp only [Script.meets_onOk_ok, Script.meets_bind, Script.meets_exec]
  intro t₃ ht₃
  cases hfound : (id t₃).messages.lookup messageId with
  | some found => exact trivial
  | none =>
    refine Script.meets_mayFail.mpr
      ⟨ends_ok (committable_message (List.mem_append_right _ (List.mem_singleton_self _)) fun k hk => ?_)
      fun _ _ => trivial, trivial⟩
    obtain ⟨ref, href, rfl⟩ := List.mem_map.mp hk
    exact .inl (((hready ref href).later ht₂ hsub₂).later ht₃ (List.subset_append_left _ _))

/-! ## Deletions -/

/-- The two parts of `isAttachmentReferenced`, on a locked row: what is found to be free of a kind that the run is about stays free of
it. -/
theorem ok_isAttachmentProtectedByBundleReference (hlock : .row .update key ∈ held)
    {post : Except AttachmentError Bool → List AttachmentLock → (AttachmentStore → AttachmentStore) → AttachmentStore → Prop}
    (hok : ∀ t isProtected, Later aspects quota organizationOf held s t →
      (isProtected = false → aspects (.references .bundle) → ¬ Referenced .bundle key t) → post (.ok isProtected) held id t) :
    Ok aspects quota organizationOf kinds post (isAttachmentProtectedByBundleReference key) held id s := by
  simp only [isAttachmentProtectedByBundleReference, Script.meets_bind, Script.meets_read]
  intro t₁ ht₁
  simp only [Script.meets_onOk_ok]
  cases href : resourceReferences key (id t₁) with
  | true => exact hok t₁ true ht₁ (by simp)
  | false =>
    simp only [Bool.false_eq_true, if_false, Script.meets_read]
    intro t₂ ht₂
    refine hok t₂ _ (ht₁.trans ht₂) fun _ haspect hbundle => ?_
    obtain ⟨resourceId, row, hrow, hkey⟩ := (ht₂.protects _ hlock).2 .bundle haspect hbundle
    have hnone := List.any_eq_false.mp href ⟨resourceId, row⟩ (AList.mem_lookup_iff.mp hrow)
    exact hnone (decide_eq_true hkey)

theorem ok_isAttachmentReferencedByMessage
    {post : Except AttachmentError Bool → List AttachmentLock → (AttachmentStore → AttachmentStore) → AttachmentStore → Prop}
    (hok : ∀ t referenced, Later aspects quota organizationOf held s t → (referenced = false → ¬ Referenced .message key t) →
      post (.ok referenced) held id t) :
    Ok aspects quota organizationOf kinds post (isAttachmentReferencedByMessage key) held id s := by
  simp only [isAttachmentReferencedByMessage, Script.meets_read]
  intro t ht
  refine hok t _ ht fun href hmessage => ?_
  obtain ⟨messageId, refs, hrefs, hmem⟩ := hmessage
  have hnone := List.any_eq_false.mp href ⟨messageId, refs⟩ (AList.mem_lookup_iff.mp hrefs)
  exact hnone (decide_eq_true (.inr hmem))

/-- What is left after the first transaction of a deletion: where a blob is to be deleted, a removal to come takes no row with a
reference of the kinds. -/
def Claimed (kinds : ReferenceKind → Prop) (key : String) (claimed : Option (Option String)) (s : AttachmentStore) : Prop :=
  ∀ blob, claimed = some (some blob) → ∀ kind, kinds kind → Released kind key s

/-- A row that is locked and has no reference of the kinds is marked or deleted. -/
theorem ok_releaseRow {now : Int} (haspects : ∀ kind, kinds kind → aspects (.references kind)) (hlock : .row .update key ∈ held)
    (hrow : s.attachments.lookup key = some row)
    (hfree : ∀ kind, kinds kind → ¬ Referenced kind key s)
    {post : Except AttachmentError (Option (Option String)) → List AttachmentLock → (AttachmentStore → AttachmentStore) →
      AttachmentStore → Prop}
    (hok : ∀ t claimed, Claimed kinds key claimed t → post (.ok claimed) [] id t) :
    Ok aspects quota organizationOf kinds (Ends aspects quota organizationOf kinds post) (releaseRow key now row) held id s := by
  have hfree' : ∀ t, Later aspects quota organizationOf held s t → ∀ kind, kinds kind → ¬ Referenced kind key t :=
    fun t ht kind hkind href => hfree kind hkind ((ht.protects _ hlock).2 kind (haspects kind hkind) href)
  unfold releaseRow
  cases hblob : truthy row.objectKey with
  | none =>
    simp only [Script.meets_bind]
    refine ok_deleteAttachment (fun t _ ht _ _ => hfree' t ht) fun held own t hcommit => ?_
    exact ends_ok hcommit fun u _ => hok _ _ (fun blob h => by cases h)
  | some blob =>
    have hkey : row.objectKey ≠ none := by
      intro hnone
      simp [hnone, truthy] at hblob
    simp only [Script.meets_bind, updateAttachment, Script.meets_exec]
    intro t ht
    have hrow' : t.attachments.lookup key = some row := (ht.protects _ hlock).1.trans hrow
    have hfound : attachmentWhere key (fun _ => true) (id t) = some row := (attachmentWhere_true key t).trans hrow'
    rw [hfound]
    have hcommit : Committable aspects quota organizationOf kinds (held ++ lockFound .noKeyUpdate key (some row))
        (setAttachment key { row with lifecycleState := .deleting, updatedAt := now }) t := by
      intro u hu
      have hu' := hu.subset (List.subset_append_left held (lockFound .noKeyUpdate key (some row)))
      have hrow'' : u.attachments.lookup key = some row := (hu'.protects _ hlock).1.trans hrow'
      exact ⟨guarantees_touch hu.inv hrow'' (rowTouch_deleting row now hkey) (.inl (List.mem_append_left _ hlock)),
        good_touch hrow'' (rowTouch_deleting row now hkey) fun _ => .inr (hfree' u (ht.trans hu'))⟩
    refine ends_ok hcommit fun u hu => hok _ _ fun _ _ kind hkind row' hrow' => ?_
    rcases lookup_setAttachment hrow' with ⟨_, rfl⟩ | ⟨hne, _⟩
    · refine .inl ⟨rfl, fun href => hfree' u (ht.trans (hu.subset (List.subset_append_left held _))) kind hkind
        ((referenced_congr (s := u) (t := setAttachment key _ u) rfl rfl).mp href)⟩
    · exact absurd rfl hne

/-- After the first transaction, the deletion of the blob and of its marked row takes no row with a reference of the kinds. -/
theorem ok_deleteBlob (haspects : ∀ kind, kinds kind → aspects (.references kind)) {claimed : Option (Option String)}
    (h : Claimed kinds key claimed s) :
    Ok aspects quota organizationOf kinds (fun _ held own _ => held = [] ∧ own = id) (deleteBlob key claimed) [] id s := by
  match claimed, h with
  | none, _ => exact ⟨rfl, rfl⟩
  | some none, _ => exact ⟨rfl, rfl⟩
  | some (some blob), h =>
    simp only [deleteBlob, Script.meets_bind]
    refine Script.meets_mayFail.mpr ⟨?_, rfl, rfl⟩
    simp only [Script.meets_onOk_ok, Script.meets_bind, Script.meets_transaction]
    refine ok_deleteAttachment (fun t row ht hrow hdeleting kind hkind href => ?_) fun held own t hcommit => ?_
    · rcases ht.always.released kind (haspects kind hkind) key (h blob rfl kind hkind) row hrow with ⟨_, hnone⟩ | ⟨_, hstate⟩
      · exact hnone href
      · exact hstate (of_decide_eq_true hdeleting)
    · exact ends_ok hcommit fun _ _ => ⟨rfl, rfl⟩

/-- The first transaction of `deleteAttachmentIfUnreferenced` claims no row with a reference. -/
theorem ok_claimUnreferenced {orphanCutoff : Option Int} {now : Int} (haspects : ∀ kind, kinds kind → aspects (.references kind))
    (s : AttachmentStore)
    {post : Except AttachmentError (Option (Option String)) → List AttachmentLock → (AttachmentStore → AttachmentStore) →
      AttachmentStore → Prop}
    (hok : ∀ t claimed, Claimed kinds key claimed t → post (.ok claimed) [] id t) :
    Ok aspects quota organizationOf kinds (Ends aspects quota organizationOf kinds post)
      (claimUnreferenced key orphanCutoff now) [] id s := by
  have hnothing : ∀ held t, Ends aspects quota organizationOf kinds post (.ok none) held id t := fun held t =>
    ends_ok (committable_id held t) fun u _ => hok u none fun _ h => by cases h
  simp only [claimUnreferenced, Script.meets_bind, selectFor, Script.meets_lockAndRead]
  intro t₁ ht₁
  simp only [Script.meets_onOk_ok]
  cases hfound : attachmentWhere key (fun _ => true) (id t₁) with
  | none => exact hnothing _ t₁
  | some row =>
    have hrow : t₁.attachments.lookup key = some row := (attachmentWhere_eq_some.mp hfound).1
    have hlock : .row .update key ∈ [] ++ lockFound .update key (some row) := by simp [lockFound]
    dsimp only
    split
    · exact hnothing _ t₁
    · simp only [isAttachmentReferenced, Script.meets_bind]
      refine ok_isAttachmentProtectedByBundleReference hlock fun t₂ isProtected ht₂ hbundle => ?_
      have hrow₂ : t₂.attachments.lookup key = some row := (ht₂.protects _ hlock).1.trans hrow
      -- A referenced row is dated again, so that the sweep does not come back to it soon.
      have hreferenced : ∀ t, t.attachments.lookup key = some row →
          Ok aspects quota organizationOf kinds (Ends aspects quota organizationOf kinds post)
          (if row.lifecycleState ≠ .deleting then do
            let _ ← updateAttachment key (fun _ => true) fun row => { row with updatedAt := now }
            pure none
          else pure none) ([] ++ lockFound .update key (some row)) id t := by
        intro t hrow
        split
        · simp only [Script.meets_bind, updateAttachment, Script.meets_exec]
          intro u hu
          have hrow' : u.attachments.lookup key = some row := (hu.protects _ hlock).1.trans hrow
          rw [show attachmentWhere key (fun _ => true) (id u) = some row from (attachmentWhere_true key u).trans hrow']
          refine ends_ok (fun v hv => ?_) fun v _ => hok _ none fun _ h => by cases h
          have hrow'' : v.attachments.lookup key = some row :=
            ((hv.subset (List.subset_append_left _ _)).protects _ hlock).1.trans hrow'
          exact ⟨guarantees_touch hv.inv hrow'' (rowTouch_updatedAt row now) (.inl (List.mem_append_left _ hlock)),
            good_touch hrow'' (rowTouch_updatedAt row now) fun h => .inl h⟩
        · exact hnothing _ t
      cases isProtected with
      | true => exact hreferenced t₂ hrow₂
      | false =>
        simp only [Script.meets_onOk_ok, Bool.false_eq_true, if_false]
        refine ok_isAttachmentReferencedByMessage fun t₃ referenced ht₃ hmessage => ?_
        have hrow₃ : t₃.attachments.lookup key = some row := (ht₃.protects _ hlock).1.trans hrow₂
        simp only [Script.meets_onOk_ok]
        cases referenced with
        | true => exact hreferenced t₃ hrow₃
        | false =>
          refine ok_releaseRow haspects hlock hrow₃ (fun kind hkind => ?_) hok
          have haspect := haspects kind hkind
          cases kind with
          | bundle => exact fun href => hbundle rfl haspect ((ht₃.protects _ hlock).2 .bundle haspect href)
          | message => exact hmessage rfl

/-- `deleteAttachmentIfUnreferenced` meets the discipline, and keeps every referenced row. -/
theorem ok_deleteAttachmentIfUnreferenced {orphanCutoff : Option Int} {now : Int}
    (haspects : ∀ kind, kinds kind → aspects (.references kind)) (key : String) (s : AttachmentStore) :
    Ok aspects quota organizationOf kinds (fun _ held own _ => held = [] ∧ own = id)
      (deleteAttachmentIfUnreferenced now orphanCutoff key) [] id s := by
  simp only [deleteAttachmentIfUnreferenced, Script.meets_bind, Script.meets_transaction]
  exact ok_claimUnreferenced haspects s fun t claimed h => ok_deleteBlob haspects h

/-- The first transaction of `deleteExpiredAttachmentIfUnprotected` claims no row with a bundle reference. -/
theorem ok_claimExpired {now : Int} (haspects : ∀ kind, kinds kind → aspects (.references kind))
    (hkinds : ∀ kind, kinds kind → kind = .bundle) (s : AttachmentStore)
    {post : Except AttachmentError (Option (Option String)) → List AttachmentLock → (AttachmentStore → AttachmentStore) →
      AttachmentStore → Prop}
    (hok : ∀ t claimed, Claimed kinds key claimed t → post (.ok claimed) [] id t) :
    Ok aspects quota organizationOf kinds (Ends aspects quota organizationOf kinds post) (claimExpired key now) [] id s := by
  have hnothing : ∀ held t, Ends aspects quota organizationOf kinds post (.ok none) held id t := fun held t =>
    ends_ok (committable_id held t) fun u _ => hok u none fun _ h => by cases h
  simp only [claimExpired, Script.meets_bind, selectFor, Script.meets_lockAndRead]
  intro t₁ ht₁
  simp only [Script.meets_onOk_ok]
  cases hfound : attachmentWhere key (fun _ => true) (id t₁) with
  | none => exact hnothing _ t₁
  | some row =>
    have hrow : t₁.attachments.lookup key = some row := (attachmentWhere_eq_some.mp hfound).1
    have hlock : .row .update key ∈ [] ++ lockFound .update key (some row) := by simp [lockFound]
    dsimp only
    split
    · exact hnothing _ t₁
    · simp only [Script.meets_bind]
      refine ok_isAttachmentProtectedByBundleReference hlock fun t₂ isProtected ht₂ hbundle => ?_
      cases isProtected with
      | true => exact hnothing _ t₂
      | false =>
        simp only [Script.meets_onOk_ok, Bool.false_eq_true, if_false, Script.meets_bind]
        refine ok_isAttachmentReferencedByMessage fun t₃ referenced ht₃ _ => ?_
        simp only [Script.meets_onOk_ok]
        cases referenced with
        | false => exact hnothing _ t₃
        | true =>
          refine ok_releaseRow haspects hlock (((ht₂.trans ht₃).protects _ hlock).1.trans hrow) (fun kind hkind => ?_) hok
          obtain rfl := hkinds kind hkind
          have haspect := haspects .bundle hkind
          exact fun href => hbundle rfl haspect ((ht₃.protects _ hlock).2 .bundle haspect href)

/-- `deleteExpiredAttachmentIfUnprotected` meets the discipline, and keeps every row with a bundle reference. -/
theorem ok_deleteExpiredAttachmentIfUnprotected {now : Int} (haspects : ∀ kind, kinds kind → aspects (.references kind))
    (hkinds : ∀ kind, kinds kind → kind = .bundle) (key : String) (s : AttachmentStore) :
    Ok aspects quota organizationOf kinds (fun _ held own _ => held = [] ∧ own = id)
      (deleteExpiredAttachmentIfUnprotected now key) [] id s := by
  simp only [deleteExpiredAttachmentIfUnprotected, Script.meets_bind, Script.meets_transaction]
  exact ok_claimExpired haspects hkinds s fun t claimed h => ok_deleteBlob haspects h

/-- A cleanup of a list of rows, from the deletion of each. -/
theorem ok_cleanUpEach {delete : String → AttachmentScript Bool}
    (hdelete : ∀ key s, Ok aspects quota organizationOf kinds (fun _ held own _ => held = [] ∧ own = id) (delete key) [] id s)
    (ids : List String) (s : AttachmentStore) :
    Ok aspects quota organizationOf kinds (fun _ held own _ => held = [] ∧ own = id) (cleanUpEach delete ids) [] id s := by
  refine Script.meets_forEach_idle (fun key _ s => ?_) fun s => ⟨rfl, rfl⟩
  simp only [Script.meets_tryCatch, Script.meets_bind]
  refine (hdelete key s).mono fun r held own t h => ?_
  cases r with
  | ok deleted => exact h
  | error e => exact h

/-- A transaction that only reads. -/
theorem ok_reads {f : AttachmentStore → α} (s : AttachmentStore)
    (hok : ∀ t u, Later aspects quota organizationOf [] t u → post (.ok (f t)) [] id u) :
    Ok aspects quota organizationOf kinds post (Script.transaction (Script.read f)) [] id s := by
  simp only [Script.meets_transaction, Script.meets_read]
  exact fun t _ => ends_ok (committable_id [] t) fun u hu => hok t u hu

/-- The orphan sweep meets the discipline, and keeps every referenced row. -/
theorem ok_sweepOrphanAttachments (now : Int) (batchSize : Nat) (order : List String → List String)
    (haspects : ∀ kind, kinds kind → aspects (.references kind)) (s : AttachmentStore) :
    Ok aspects quota organizationOf kinds (fun _ _ _ _ => True) (sweepOrphanAttachments now batchSize order) [] id s := by
  simp only [sweepOrphanAttachments, Script.meets_bind]
  refine ok_reads s fun t u _ => ?_
  simp only [Script.meets_onOk_ok]
  exact (ok_cleanUpEach (fun key s => ok_deleteAttachmentIfUnreferenced haspects key s) _ u).mono fun _ _ _ _ _ => trivial

/-- The batches of the retention sweep keep every row with a bundle reference. -/
theorem ok_retentionBatches {now cutoff : Int} {batchSize : Nat} {order : List String → List String}
    (haspects : ∀ kind, kinds kind → aspects (.references kind)) (hkinds : ∀ kind, kinds kind → kind = .bundle) (batches : Nat)
    (s : AttachmentStore) :
    Ok aspects quota organizationOf kinds (fun _ _ _ _ => True) (retentionBatches now cutoff batchSize order batches) [] id s := by
  induction batches generalizing s with
  | zero => exact trivial
  | succ batches ih =>
    simp only [retentionBatches, Script.meets_bind]
    refine ok_reads s fun t u _ => ?_
    simp only [Script.meets_onOk_ok]
    split
    · exact trivial
    · simp only [Script.meets_bind]
      refine (ok_cleanUpEach (fun key s => ok_deleteExpiredAttachmentIfUnprotected haspects hkinds key s) _ u).mono
        fun r held own v h => ?_
      obtain ⟨rfl, rfl⟩ := h
      cases r with
      | ok _ => exact ih v
      | error e => exact trivial

/-- The retention sweep meets the discipline, and keeps every row with a bundle reference. -/
theorem ok_sweepExpiredMessageAttachments {deleteEnabled : Bool} {now : Int} {batchSize maxBatches : Nat}
    {order : List String → List String} (haspects : ∀ kind, kinds kind → aspects (.references kind))
    (hkinds : ∀ kind, kinds kind → kind = .bundle) (s : AttachmentStore) :
    Ok aspects quota organizationOf kinds (fun _ _ _ _ => True)
      (sweepExpiredMessageAttachments deleteEnabled now batchSize maxBatches order) [] id s := by
  unfold sweepExpiredMessageAttachments
  split
  · exact ok_retentionBatches haspects hkinds maxBatches s
  · exact trivial

/-! ## The legacy blob store -/

/-- The bytes that a backfill writes into a ready row of the size they have are a touch. -/
theorem rowTouch_data {bytes : List UInt8} {now : Int} (hnone : row.data = none) (hlength : bytes.length = row.sizeBytes) :
    RowTouch row { row with data := some bytes, updatedAt := now } where
  organizationId := rfl
  objectKey := rfl
  mimeType := rfl
  filename := rfl
  sizeBytes := rfl
  uploadedBy := rfl
  createdAt := rfl
  data bytes' h := by
    rw [hnone] at h
    cases h
  state := .inl rfl
  recorded h := ⟨fun _ hdata => by rw [← Option.some.inj hdata, hlength], h.limit, fun _ => .inl rfl⟩

/-- What a candidate of the backfill says of its size, if its row is still there. -/
def Sized (candidate : String × Option String × Nat) (s : AttachmentStore) : Prop :=
  ∀ row, s.attachments.lookup candidate.1 = some row → row.objectKey ≠ none →
    row.lifecycleState ≠ .uploading ∧ row.sizeBytes = candidate.2.2

/-- The size of a row with a blob stays, because such a row is never new. -/
theorem Sized.kept {candidate : String × Option String × Nat} (h : Sized candidate s) (hkept : Kept aspects organizationOf s t) :
    Sized candidate t := by
  intro row hrow hkey
  obtain ⟨row₀, hrow₀, hkey₀, hsize⟩ := hkept.legacy candidate.1 row hrow hkey
  obtain ⟨hstate₀, hsize₀⟩ := h row₀ hrow₀ (hkey₀ ▸ hkey)
  obtain ⟨hstate, hsame⟩ := hsize hstate₀
  exact ⟨hstate, hsame.trans hsize₀⟩

/-- One row of the backfill writes as many bytes as the row says it has. -/
theorem ok_backfillRow {now : Int} {bodyOf : String → Body} {candidate : String × Option String × Nat} (hsized : Sized candidate s) :
    Ok aspects quota organizationOf kinds (fun _ held own t => held = [] ∧ own = id ∧ ∀ c, Sized c s → Sized c t)
      (backfillRow now bodyOf candidate) [] id s := by
  unfold backfillRow
  cases hkey : truthy candidate.2.1 with
  | none => exact ⟨rfl, rfl, fun _ h => h⟩
  | some objectKey =>
    simp only [Script.meets_tryCatch, Script.meets_bind, Script.meets_check]
    cases hbody : readAttachmentBody (bodyOf objectKey) (some candidate.2.2) with
    | error e => exact ⟨rfl, rfl, fun _ h => h⟩
    | ok bytes =>
      have hlength : bytes.length = candidate.2.2 := by
        have h := (readAttachmentBody_ok hbody).2 _ rfl
        omega
      simp only [Script.meets_onOk_ok, Script.meets_bind, Script.meets_transaction, updateAttachment, Script.meets_exec]
      intro t ht
      cases hfound : attachmentWhere candidate.1
          (fun row => decide (row.lifecycleState = .ready ∧ row.objectKey = some objectKey) && row.data.isNone) (id t) with
      | none =>
        exact ends_ok (committable_id _ t) fun u hu => ⟨rfl, rfl, fun _ h => (h.kept ht.always).kept hu.always⟩
      | some row =>
        obtain ⟨hrow, hcondition⟩ := attachmentWhere_eq_some.mp hfound
        obtain ⟨hready, hnone⟩ := Bool.and_eq_true_iff.mp hcondition
        obtain ⟨hready, hobject⟩ := of_decide_eq_true hready
        have hsize := (hsized.kept ht.always row hrow (by simp [hobject])).2
        have hlock : .row .noKeyUpdate candidate.1 ∈ [] ++ lockFound .noKeyUpdate candidate.1 (some row) := by simp [lockFound]
        have htouch : RowTouch row { row with data := some bytes, updatedAt := now } :=
          rowTouch_data (Option.isNone_iff_eq_none.mp hnone) (hlength.trans hsize.symm)
        have hcommit : Committable aspects quota organizationOf kinds ([] ++ lockFound .noKeyUpdate candidate.1 (some row))
            (setAttachment candidate.1 { row with data := some bytes, updatedAt := now }) t := fun u hu =>
          have hrow' := (hu.protects _ hlock).trans hrow
          ⟨guarantees_touch hu.inv hrow' htouch (.inr ⟨hlock, rfl⟩), good_touch hrow' htouch fun h => .inl h⟩
        exact ends_ok hcommit fun u hu =>
          ⟨rfl, rfl, fun _ h => ((h.kept ht.always).kept hu.always).kept (hcommit u hu).1.always⟩

/-- The backfill meets the discipline. -/
theorem ok_backfillExternalAttachmentsToPostgres {now : Int} {batchSize : Nat} {bodyOf : String → Body} (s : AttachmentStore) :
    Ok aspects quota organizationOf kinds (fun _ _ _ _ => True)
      (backfillExternalAttachmentsToPostgres now batchSize bodyOf) [] id s := by
  simp only [backfillExternalAttachmentsToPostgres, Script.meets_bind]
  refine ok_reads s fun t u hu => ?_
  simp only [Script.meets_onOk_ok]
  refine Script.meets_forEach (I := fun _ held own v => held = [] ∧ own = id ∧ ∀ c ∈ ((t.attachments.entries.filter fun e =>
    decide (e.2.lifecycleState = .ready) && e.2.data.isNone && e.2.objectKey.isSome).map fun e =>
      (e.1, e.2.objectKey, e.2.sizeBytes)).take batchSize, Sized c v) ?_ (fun _ _ _ _ => trivial) ⟨rfl, rfl, fun c hc => ?_⟩
  · rintro finished c rest hsplit held own v ⟨rfl, rfl, hsized⟩
    refine (ok_backfillRow (hsized c (hsplit ▸ by simp))).mono fun r held own w h => ?_
    obtain ⟨rfl, rfl, hkept⟩ := h
    cases r with
    | ok _ => exact ⟨rfl, rfl, fun c' hc' => hkept c' (hsized c' hc')⟩
    | error e => exact trivial
  · obtain ⟨e, he, rfl⟩ := List.mem_map.mp (List.mem_of_mem_take hc)
    obtain ⟨hmem, hcondition⟩ := List.mem_filter.mp he
    have hready : e.2.lifecycleState = .ready := by simp_all
    refine Sized.kept (fun row hrow _ => ?_) hu.always
    obtain rfl : e.2 = row := Option.some.inj ((AList.mem_lookup_iff.mpr hmem).symm.trans hrow)
    exact ⟨by simp [hready], rfl⟩

/-! ## Releases -/

/-- The release of a replaced bundle meets the discipline. -/
theorem ok_releaseReplacedBundle {now : Int} {previous bundleAttachmentId : Option String}
    (haspects : ∀ kind, kinds kind → aspects (.references kind)) (s : AttachmentStore) :
    Ok aspects quota organizationOf kinds (fun _ _ _ _ => True) (releaseReplacedBundle now previous bundleAttachmentId) [] id s := by
  unfold releaseReplacedBundle
  split
  · simp only [Script.meets_tryCatch, Script.meets_bind]
    refine (ok_deleteAttachmentIfUnreferenced haspects _ s).mono fun r held own t _ => ?_
    cases r <;> exact trivial
  · exact trivial

/-- Where a run is about bundles, a commit leaves the resource with the bundle that it holds. -/
def BundleHeld (aspects : Aspect → Prop) (resourceId : String) (s t : AttachmentStore) : Prop :=
  aspects (.references .bundle) → t.resources.lookup resourceId = s.resources.lookup resourceId

/-- A resource that is left with its bundle does the commit's part. -/
theorem guarantees_resource {resourceId : String} (h : StoreOk aspects quota s) (hattachments : t.attachments = s.attachments)
    (hmessages : t.messages = s.messages) (hresource : .resource resourceId ∈ held)
    (hothers : ∀ k, k ≠ resourceId → t.resources.lookup k = s.resources.lookup k) (hheld : BundleHeld aspects resourceId s t) :
    (attachmentDiscipline aspects quota organizationOf).Guarantees AttachmentLock.conflicts held s t := by
  refine guarantees_of_steps ⟨fun haspect => ?_, fun haspect => ?_, fun haspect k row hrow => ?_⟩
    (fun k => .inl (by rw [hattachments])) (fun kind haspect k => .inl fun href => ?_) (fun k => ?_) fun k => .inl (by rw [hmessages])
  · simpa only [WithinQuota, organizationUsage, hattachments] using h.quota haspect
  · simpa only [UploadsWithinLimit, activeUploads, hattachments] using h.uploads haspect
  · exact h.rows haspect k row (hattachments ▸ hrow)
  · cases kind with
    | message => simpa only [Referenced, hmessages] using href
    | bundle =>
      obtain ⟨id, row, hrow, hbundle⟩ := href
      refine ⟨id, row, ?_, hbundle⟩
      by_cases hid : id = resourceId
      · subst hid
        exact hheld haspect ▸ hrow
      · exact hothers id hid ▸ hrow
  · by_cases hk : k = resourceId
    · exact .inr (hk ▸ hresource)
    · exact .inl (hothers k hk)

/-- A new bundle of a resource meets the discipline, and the release of the old one keeps every referenced row. -/
theorem ok_updateResource_some {now : Int} (resourceId bundleAttachmentId : String)
    (haspects : ∀ kind, kinds kind → aspects (.references kind)) (s : AttachmentStore) :
    Ok aspects quota organizationOf kinds (fun _ _ _ _ => True) (updateResource now resourceId (some bundleAttachmentId)) [] id
      s := by
  simp only [updateResource, lockNewBundle, Script.meets_bind]
  refine ok_reads s fun t u _ => ?_
  simp only [Script.meets_onOk_ok]
  cases hcurrent : t.resources.lookup resourceId with
  | none => exact trivial
  | some current =>
    simp only [Script.meets_bind, Script.meets_transaction]
    refine ok_lockReadySkillBundle current.organizationId bundleAttachmentId u (fun t₁ row hrow hready => ?_) fun _ _ _ _ => trivial
    simp only [Script.meets_onOk_ok, Script.meets_bind]
    refine Script.meets_mayFail.mpr ⟨?_, trivial⟩
    simp only [Script.meets_onOk_ok, Script.meets_exec]
    intro t₂ ht₂
    have hrow' : t₂.attachments.lookup bundleAttachmentId = some row := (ht₂.protects _ (List.mem_singleton_self _)).1.trans hrow
    cases hfound : (id t₂).resources.lookup resourceId with
    | none => exact ends_ok (committable_id _ t₂) fun v _ => ok_releaseReplacedBundle haspects v
    | some found =>
      exact ends_ok (committable_bind hrow' hready (by simp) (by simp) rfl) fun _ _ => ok_releaseReplacedBundle haspects _

/-- A resource that is updated without a bundle meets the discipline where its commit leaves it with the one that it holds. -/
theorem meets_updateResource_none {now : Int} (resourceId : String) (haspects : ∀ kind, kinds kind → aspects (.references kind))
    (s : AttachmentStore) :
    Script.Meets (attachmentDiscipline aspects quota organizationOf) AttachmentLock.conflicts (BundleHeld aspects resourceId)
      (Good kinds) (fun _ _ _ _ => True) (updateResource now resourceId none) [] id s := by
  simp only [updateResource, lockNewBundle, Script.meets_bind]
  refine Script.Meets.mono_given (ok_reads s fun t u _ => ?_) fun _ _ _ => trivial
  simp only [Script.meets_onOk_ok]
  cases hcurrent : t.resources.lookup resourceId with
  | none => exact trivial
  | some current =>
    simp only [Script.meets_bind, Script.meets_transaction, Script.meets_pure, Script.meets_onOk_ok]
    refine Script.meets_mayFail.mpr ⟨?_, trivial⟩
    simp only [Script.meets_onOk_ok, Script.meets_exec]
    intro t₂ ht₂
    have hrelease : ∀ v, Script.Meets (attachmentDiscipline aspects quota organizationOf) AttachmentLock.conflicts
        (BundleHeld aspects resourceId) (Good kinds) (fun _ _ _ _ => True)
        (releaseReplacedBundle now current.bundleAttachmentId (none <|> current.bundleAttachmentId)) [] id v :=
      fun v => (ok_releaseReplacedBundle haspects v).mono_given fun _ _ _ => trivial
    cases hfound : (id t₂).resources.lookup resourceId with
    | none => exact fun u hu _ => ⟨.refl hu.inv, good_refl kinds u, hrelease u⟩
    | some row =>
      exact fun u hu hheld => ⟨guarantees_resource hu.inv rfl rfl (by simp) (fun k hk => AList.lookup_insert_ne hk) hheld,
        good_of_sameRows kinds rfl, hrelease _⟩

/-- An edit meets the discipline, and the releases after it keep every referenced row. -/
theorem ok_editMessage {now : Int} (messageId : String) (content : List String)
    (haspects : ∀ kind, kinds kind → aspects (.references kind)) (s : AttachmentStore) :
    Ok aspects quota organizationOf kinds (fun _ _ _ _ => True) (editMessage now messageId content) [] id s := by
  simp only [editMessage, Script.meets_bind, Script.meets_transaction, Script.meets_lockAndRead, Script.meets_check,
    Script.meets_onOk_ok]
  intro t₁ ht₁
  cases hfound : (id t₁).messages.lookup messageId with
  | none => exact trivial
  | some previous =>
    simp only [Script.meets_onOk_ok, Script.meets_bind]
    refine ok_lockFileAttachmentRefsIfPresent content ht₁.inv fun held₂ t₂ ht₂ hsub₂ => ?_
    simp only [Script.meets_onOk_ok, Script.meets_bind, Script.meets_exec]
    intro t₃ ht₃
    have hlock : .message messageId ∈ held₂ := hsub₂ (by simp)
    have hprevious : t₃.messages.lookup messageId = some previous :=
      (ht₃.protects _ hlock).trans ((ht₂.protects (.message messageId) (by simp)).trans hfound)
    refine Script.meets_mayFail.mpr ⟨?_, trivial⟩
    refine ends_ok (committable_message (List.mem_append_left _ hlock) fun k hk => .inr ⟨previous, hprevious, hk⟩) fun u _ => ?_
    exact (ok_cleanUpEach (fun key s => ok_deleteAttachmentIfUnreferenced haspects key s) _ _).mono fun _ _ _ _ _ => trivial

end AttachmentsAux

end FirstTree
