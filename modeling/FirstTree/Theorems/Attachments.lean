import FirstTree.Lib.Runs
import FirstTree.Lib.Scripts
import FirstTree.Lemmas.Attachments
import FirstTree.Lemmas.AttachmentScripts
import FirstTree.Server.Attachments

/-!
# Runs of the attachment scripts

In every run of the attachment scripts, in any order of their steps and with crashes anywhere, the organizations stay within their
quotas and the callers within their uploads, what is published of an attachment is never written again, and no cleanup takes an
attachment that a committed reference protects from it.
-/

namespace FirstTree

open Runs Transactions Scripts Attachments AttachmentsAux

/-- The attachment scripts in progress. -/
abbrev AttachmentSystem (Tx : Type) := Running AttachmentCall AttachmentStore AttachmentLock AttachmentError Tx

/-- What can happen to the attachments. -/
abbrev AttachmentOp (Tx : Type) := ScriptOp AttachmentCall Tx

variable {Tx : Type} [DecidableEq Tx]

/-- One step of the attachment scripts, by the quota of the deployment. -/
def attachmentStep (quota : Nat) (s : AttachmentSystem Tx) (op : AttachmentOp Tx) : Option (AttachmentSystem Tx) :=
  Scripts.step AttachmentLock.conflicts (AttachmentCall.script quota) s op

/-- The identifiers of the attachments that the calls of a run create, with their organizations. -/
def createdBy (ops : List (AttachmentOp Tx)) : List (String × String) :=
  ops.flatMap fun
    | .begin _ call => call.creates
    | _ => []

/-- No identifier is created for two organizations: an identifier is generated, or a UUID of its caller. -/
def IdsKeepOrganization (ops : List (AttachmentOp Tx)) : Prop :=
  ∀ a ∈ createdBy ops, ∀ b ∈ createdBy ops, a.1 = b.1 → a.2 = b.2

/-- The references that a call respects: a failed upload deletes its own reservation, and the retention sweep deletes what
messages refer to. -/
def AttachmentCall.respects : AttachmentCall → ReferenceKind → Prop
  | .createAttachment _ _ => fun _ => False
  | .sweepExpiredMessageAttachments _ _ _ _ _ => fun kind => kind = .bundle
  | _ => fun _ => True

/-- A resource that is updated without a bundle is left with the one that it holds. -/
def AttachmentCall.KeepsBundle (s t : AttachmentStore) : AttachmentCall → Prop
  | .updateResource _ resourceId none => t.resources.lookup resourceId = s.resources.lookup resourceId
  | _ => True

instance (s t : AttachmentStore) : DecidablePred (AttachmentCall.KeepsBundle s t)
  | .updateResource _ resourceId none => decEq (t.resources.lookup resourceId) (s.resources.lookup resourceId)
  | .updateResource _ _ (some _) | .createAttachment _ _ | .adoptTemplates _ _ _ _ _ | .createTeamResource _ _ _ | .sendMessage _ _ _
  | .deleteAttachmentIfUnreferenced _ _ | .sweepOrphanAttachments _ _ _ | .sweepExpiredMessageAttachments _ _ _ _ _
  | .backfillExternalAttachmentsToPostgres _ _ _ | .editMessage _ _ _ => isTrue trivial

/-- Where bundles are asked for, a step commits no update that has read its resource before another bundle was bound to it. The code
does not check this. -/
def BundleStillHeld (kind : ReferenceKind) (s : AttachmentSystem Tx) (op : AttachmentOp Tx) : Prop :=
  kind = .bundle → ∀ c ∈ commitOf s op, c.1.KeepsBundle s.store c.2

instance (kind : ReferenceKind) (s : AttachmentSystem Tx) (op : AttachmentOp Tx) : Decidable (BundleStillHeld kind s op) :=
  inferInstanceAs (Decidable (kind = .bundle → ∀ c ∈ commitOf s op, c.1.KeepsBundle s.store c.2))

namespace AttachmentsAux

/-- The organization an identifier is created for. -/
def organizationIn (created : List (String × String)) (id : String) : String :=
  ((created.find? fun e => decide (e.1 = id)).map Prod.snd).getD ""

omit [DecidableEq Tx] in
/-- It is the organization of each creation of the identifier. -/
theorem organizationIn_eq {ops : List (AttachmentOp Tx)} (hids : IdsKeepOrganization ops) {id organizationId : String}
    (hmem : (id, organizationId) ∈ createdBy ops) : organizationIn (createdBy ops) id = organizationId := by
  unfold organizationIn
  cases hfind : (createdBy ops).find? fun e => decide (e.1 = id) with
  | none => exact absurd (decide_eq_true rfl) (List.find?_eq_none.mp hfind (id, organizationId) hmem)
  | some e =>
    have hid : e.1 = id := by simpa using List.find?_some hfind
    exact hids e (List.mem_of_find?_eq_some hfind) (id, organizationId) hmem hid

/-- A call whose identifiers are for the organizations they are created for. -/
def Owns (organizationOf : String → String) (call : AttachmentCall) : Prop :=
  ∀ e ∈ call.creates, organizationOf e.1 = e.2

omit [DecidableEq Tx] in
/-- Every call of a run is one whose identifiers are for their organizations. -/
theorem owns_of_begin {ops : List (AttachmentOp Tx)} (hids : IdsKeepOrganization ops) {name : Tx} {call : AttachmentCall}
    (hmem : ScriptOp.begin name call ∈ ops) : Owns (organizationIn (createdBy ops)) call :=
  fun _ he => organizationIn_eq hids (List.mem_flatMap.mpr ⟨_, hmem, he⟩)

/-- The references that a call keeps in a run about some aspects. -/
abbrev keptKinds (aspects : Aspect → Prop) (call : AttachmentCall) (kind : ReferenceKind) : Prop :=
  aspects (.references kind) ∧ call.respects kind

/-- What the commits of a call are given in such a run. -/
abbrev givenKept (aspects : Aspect → Prop) (call : AttachmentCall) (s t : AttachmentStore) : Prop :=
  aspects (.references .bundle) → call.KeepsBundle s t

/-- The script of every such call meets the discipline, and respects the references it is to respect. -/
theorem meets_script {aspects : Aspect → Prop} {quota : Nat} {organizationOf : String → String} (call : AttachmentCall)
    (howns : Owns organizationOf call) {s : AttachmentStore} (hinv : StoreOk aspects quota s) :
    (call.script quota).Meets (attachmentDiscipline aspects quota organizationOf) AttachmentLock.conflicts (givenKept aspects call)
      (Good (keptKinds aspects call)) (fun _ _ _ _ => True) [] id s := by
  have haspects : ∀ kind, keptKinds aspects call kind → aspects (.references kind) := fun _ h => h.1
  have hgiven : ∀ {p : AttachmentScript Unit},
      Ok aspects quota organizationOf (keptKinds aspects call) (fun _ _ _ _ => True) p [] id s →
      p.Meets (attachmentDiscipline aspects quota organizationOf) AttachmentLock.conflicts (givenKept aspects call)
        (Good (keptKinds aspects call)) (fun _ _ _ _ => True) [] id s := fun h => h.mono_given fun _ _ _ => trivial
  cases call with
  | createAttachment now input =>
    refine hgiven ?_
    rw [AttachmentCall.script, Ok, Script.meets_bind]
    refine (ok_createAttachment (fun _ h => h.2) (howns _ (List.mem_singleton_self _)) s).mono fun r held own t _ => ?_
    cases r <;> exact trivial
  | adoptTemplates now organizationId uploadedBy copies components =>
    exact hgiven (ok_adoptTemplates (fun copy hcopy => howns _ (List.mem_map_of_mem hcopy)) s)
  | createTeamResource resourceId organizationId bundleAttachmentId =>
    exact hgiven (ok_createTeamResource resourceId organizationId bundleAttachmentId s)
  | updateResource now resourceId bundleAttachmentId =>
    cases bundleAttachmentId with
    | none => exact meets_updateResource_none resourceId haspects s
    | some id => exact hgiven (ok_updateResource_some resourceId id haspects s)
  | sendMessage messageId content refs => exact hgiven (ok_sendMessage messageId content refs hinv)
  | deleteAttachmentIfUnreferenced now id =>
    refine hgiven ?_
    rw [AttachmentCall.script, Ok, Script.meets_bind]
    refine (ok_deleteAttachmentIfUnreferenced haspects id s).mono fun r held own t _ => ?_
    cases r <;> exact trivial
  | sweepOrphanAttachments now batchSize order => exact hgiven (ok_sweepOrphanAttachments now batchSize order haspects s)
  | sweepExpiredMessageAttachments deleteEnabled now batchSize maxBatches order =>
    exact hgiven (ok_sweepExpiredMessageAttachments haspects (fun _ h => h.2) s)
  | backfillExternalAttachmentsToPostgres now batchSize bodyOf => exact hgiven (ok_backfillExternalAttachmentsToPostgres s)
  | editMessage now messageId content => exact hgiven (ok_editMessage messageId content haspects s)

/-- What holds of the scripts in progress in every state of a run. -/
abbrev AttachmentsOk (aspects : Aspect → Prop) (quota : Nat) (organizationOf : String → String) (s : AttachmentSystem Tx) : Prop :=
  JobsOk (attachmentDiscipline aspects quota organizationOf) (givenKept aspects) (fun call => Good (keptKinds aspects call))
    AttachmentLock.conflicts s

/-- A run about the rows keeps the aspects that hold at its start, and its scripts meet the discipline. -/
theorem attachmentsOk_of_run {aspects : Aspect → Prop} {quota : Nat} {store : AttachmentStore} {ops : List (AttachmentOp Tx)}
    {s : AttachmentSystem Tx} (hids : IdsKeepOrganization ops) (haspects : ¬ aspects (.references .bundle))
    (hstart : StoreOk aspects quota store) (hr : Run (ofPartial (attachmentStep quota)) (.idle store) ops s) :
    AttachmentsOk aspects quota (organizationIn (createdBy ops)) s :=
  jobsOk_of_run conflicts_symm (fun call howns _ hinv => meets_script call howns hinv) hstart
    (admitted_of_run (fun _ _ hmem => owns_of_begin hids hmem) (fun _ _ _ h => absurd h haspects) hr)

/-- Every step of a guarded run about some references keeps those that its call is to respect, and writes no attachment twice. -/
theorem attachmentGood_of_run {aspects : Aspect → Prop} {quota : Nat} {store : AttachmentStore} {ops : List (AttachmentOp Tx)}
    {s s' : AttachmentSystem Tx} {op : AttachmentOp Tx} {guard : AttachmentSystem Tx → AttachmentOp Tx → Prop}
    (hids : IdsKeepOrganization ops) (hstart : StoreOk aspects quota store)
    (hguard : ∀ s op, guard s op → aspects (.references .bundle) → ∀ c ∈ commitOf s op, c.1.KeepsBundle s.store c.2)
    (hr : Run (Guarded guard (ofPartial (attachmentStep quota))) (.idle store) ops s)
    (hstep : Guarded guard (ofPartial (attachmentStep quota)) s op s') {call : AttachmentCall} (hcall : callOf s op = some call) :
    Good (keptKinds aspects call) s.store s'.store :=
  good_of_run (D := attachmentDiscipline aspects quota (organizationIn (createdBy ops))) conflicts_symm
    (fun call howns _ hinv => meets_script call howns hinv) (fun _ _ => good_refl _ _) hstart
    (admitted_of_guarded (fun _ _ hmem => owns_of_begin hids hmem)
      (fun s op _ _ h hcommit haspect => hguard s op h haspect _ hcommit) hr)
    (fun _ _ hcommit haspect => hguard s op hstep.1 haspect _ hcommit) hstep.2 hcall

end AttachmentsAux

namespace AttachmentsExample

/-- The bundle of a template, of one byte. -/
def bundle : AttachmentRow :=
  { organizationId := some "t", objectKey := none, lifecycleState := .ready, mimeType := "application/zip", filename := "skill.zip"
    sizeBytes := 1, data := some [7], uploadedBy := "m", createdAt := 0, updatedAt := 0 }

/-- The store with it. -/
def store : AttachmentStore :=
  { attachments := (∅ : Rows String AttachmentRow).insert "b" bundle, resources := ∅, templates := ["b"], messages := ∅ }

/-- The adoption of the template, with a copy of its bundle. -/
def adoption (copyId resourceId : String) : AttachmentCall :=
  .adoptTemplates 5 "o" "m" [⟨"b", copyId, ⟨[], none⟩⟩] [(resourceId, "b")]

/-- Two adoptions at once: the second waits for the lock of the quota, and starts when the first is committed. -/
def adoptions : List (AttachmentOp Nat) :=
  [ScriptOp.begin 0 (adoption "c" "r"), ScriptOp.begin 1 (adoption "d" "q")] ++ List.replicate 8 (ScriptOp.run 0 true) ++
    List.replicate 8 (ScriptOp.run 1 true)

/-- What a run leaves: the owners of the rows with their states, the resources with their bundles, and the open scripts. -/
structure Outcome where
  rows : List (String × Option String × AttachmentLifecycleState)
  bundles : List (String × Option String)
  active : List Nat
  deriving DecidableEq

/-- The outcome of a run. -/
def outcome (s : AttachmentSystem Nat) : Outcome :=
  ⟨s.store.attachments.entries.map fun e => (e.1, e.2.organizationId, e.2.lifecycleState),
    s.store.resources.entries.map fun e => (e.1, e.2.bundleAttachmentId), s.active.entries.map (·.1)⟩

theorem keepsOrganization_adoptions : IdsKeepOrganization adoptions := by
  have hcreated : createdBy adoptions = [("c", "o"), ("d", "o")] := rfl
  intro a ha b hb _
  rw [hcreated] at ha hb
  simp only [List.mem_cons, List.not_mem_nil, or_false] at ha hb
  rcases ha with rfl | rfl <;> rcases hb with rfl | rfl <;> rfl

theorem entries_store : store.attachments.entries = [⟨"b", bundle⟩] := rfl

/-- The two adoptions, one after the other. -/
theorem adoptions_end : (adoptions.foldlM (attachmentStep 3) (.idle store)).map outcome =
    some ⟨[("d", some "o", .ready), ("c", some "o", .ready), ("b", some "t", .ready)], [("q", some "d"), ("r", some "c")], []⟩ := by
  decide

end AttachmentsExample

open AttachmentsExample

/-! ## The quotas and the limits -/

/-- In every run that starts within the quotas, each organization's rows stay within the quota of objects and the limit of bytes. -/
theorem attachments_stay_within_quota {quota : Nat} {store : AttachmentStore} {ops : List (AttachmentOp Tx)} {s : AttachmentSystem Tx}
    (hids : IdsKeepOrganization ops) (hstart : WithinQuota quota store)
    (hr : Run (ofPartial (attachmentStep quota)) (.idle store) ops s) : WithinQuota quota s.store := by
  have hok : AttachmentsOk (· = .quota) quota (organizationIn (createdBy ops)) s :=
    attachmentsOk_of_run hids (by simp) ⟨fun _ => hstart, fun h => (by cases h), fun h => (by cases h)⟩ hr
  exact hok.store.quota rfl

namespace AttachmentsExample

theorem withinQuota_store : WithinQuota 3 store := by
  intro organizationId
  simp only [organizationUsage, entries_store, List.filter_singleton, Bool.cond_eq_ite]
  split <;> decide

end AttachmentsExample

/-- Both adoptions end within a quota of three objects. -/
theorem attachments_stay_within_quota_adoptions : ∃ s : AttachmentSystem Nat, (outcome s).active = [] ∧ WithinQuota 3 s.store := by
  obtain ⟨s, hs, hout⟩ := Option.map_eq_some_iff.mp adoptions_end
  exact ⟨s, by rw [hout], attachments_stay_within_quota keepsOrganization_adoptions withinQuota_store (Run.of_foldlM hs)⟩

/-- In every run that starts so, no caller has more than three uploads in progress for an organization. -/
theorem callers_stay_within_upload_limit {quota : Nat} {store : AttachmentStore} {ops : List (AttachmentOp Tx)}
    {s : AttachmentSystem Tx} (hids : IdsKeepOrganization ops) (hstart : UploadsWithinLimit store)
    (hr : Run (ofPartial (attachmentStep quota)) (.idle store) ops s) : UploadsWithinLimit s.store := by
  have hok : AttachmentsOk (· = .uploads) quota (organizationIn (createdBy ops)) s :=
    attachmentsOk_of_run hids (by simp) ⟨fun h => (by cases h), fun _ => hstart, fun h => (by cases h)⟩ hr
  exact hok.store.uploads rfl

namespace AttachmentsExample

theorem uploadsWithinLimit_store : UploadsWithinLimit store := by
  intro organizationId uploadedBy
  exact (List.length_filter_le _ _).trans (by decide)

end AttachmentsExample

namespace AttachmentsExample

/-- An upload of one byte by the caller. -/
def upload (id : String) : AttachmentCall :=
  .createAttachment 5 ⟨id, "o", "text/plain", "f", ⟨[[1]], none⟩, some 1, "m"⟩

/-- Three uploads of the caller reserve their rows, and the reservation of a fourth one is refused. -/
def uploads : List (AttachmentOp Nat) :=
  [ScriptOp.begin 0 (upload "x"), ScriptOp.begin 1 (upload "y"), ScriptOp.begin 2 (upload "z"), ScriptOp.begin 3 (upload "w")] ++
    List.replicate 5 (ScriptOp.run 0 true) ++ List.replicate 5 (ScriptOp.run 1 true) ++ List.replicate 5 (ScriptOp.run 2 true) ++
    List.replicate 4 (ScriptOp.run 3 true)

theorem keepsOrganization_uploads : IdsKeepOrganization uploads := by
  have hcreated : createdBy uploads = [("x", "o"), ("y", "o"), ("z", "o"), ("w", "o")] := rfl
  intro a ha b hb _
  rw [hcreated] at ha hb
  simp only [List.mem_cons, List.not_mem_nil, or_false] at ha hb
  rcases ha with rfl | rfl | rfl | rfl <;> rcases hb with rfl | rfl | rfl | rfl <;> rfl

/-- The three rows are uploading, and the fourth call is over. -/
theorem uploads_end : (uploads.foldlM (attachmentStep 10) (.idle store)).map outcome =
    some ⟨[("z", some "o", .uploading), ("y", some "o", .uploading), ("x", some "o", .uploading), ("b", some "t", .ready)], [],
      [2, 1, 0]⟩ := by
  decide +kernel

end AttachmentsExample

/-- The caller has the three uploads in progress, and no fourth one. -/
theorem callers_stay_within_upload_limit_refusal : ∃ s : AttachmentSystem Nat,
    (outcome s).rows.map (·.1) = ["z", "y", "x", "b"] ∧ (outcome s).active = [2, 1, 0] ∧ UploadsWithinLimit s.store := by
  obtain ⟨s, hs, hout⟩ := Option.map_eq_some_iff.mp uploads_end
  exact ⟨s, by rw [hout]; rfl, by rw [hout],
    callers_stay_within_upload_limit keepsOrganization_uploads uploadsWithinLimit_store (Run.of_foldlM hs)⟩

/-- What a run keeps of the bytes: they are recorded as they are, and every step leaves what has been published. -/
structure BytesKept (quota : Nat) (s : AttachmentSystem Tx) : Prop where
  recorded : ∀ id row, s.store.attachments.lookup id = some row → BytesRecorded row
  writtenOnce : ∀ op s', attachmentStep quota s op = some s' → WrittenOnce s.store s'.store

/-- In every run that starts so, each row has as many bytes as it says, a ready row has some, and no step writes an attachment whose
upload is over. -/
theorem attachments_are_written_once {quota : Nat} {store : AttachmentStore} {ops : List (AttachmentOp Tx)} {s : AttachmentSystem Tx}
    (hids : IdsKeepOrganization ops) (hstart : ∀ id row, store.attachments.lookup id = some row → BytesRecorded row)
    (hr : Run (ofPartial (attachmentStep quota)) (.idle store) ops s) : BytesKept quota s where
  recorded := by
    have hok : AttachmentsOk (· = .bytes) quota (organizationIn (createdBy ops)) s :=
      attachmentsOk_of_run hids (by simp) ⟨fun h => (by cases h), fun h => (by cases h), fun _ => hstart⟩ hr
    exact hok.store.rows rfl
  writtenOnce op s' hstep := by
    cases hcall : callOf s op with
    | some call =>
      have hok : StoreOk (fun _ => False) quota store := ⟨False.elim, False.elim, False.elim⟩
      have hguarded : Run (Guarded (fun _ _ => True) (ofPartial (attachmentStep quota))) (.idle store) ops s :=
        hr.mono fun _ _ _ h => ⟨trivial, h⟩
      exact (attachmentGood_of_run hids hok (fun _ _ _ h => h.elim) hguarded ⟨trivial, hstep⟩ hcall).writtenOnce
    | none =>
      rw [store_of_callOf_eq_none hstep hcall]
      exact (good_refl (fun _ => False) s.store).writtenOnce

namespace AttachmentsExample

theorem bytesRecorded_store : ∀ key row, store.attachments.lookup key = some row → BytesRecorded row := by
  intro key row hrow
  obtain rfl : row = bundle := by
    have hmem := AList.mem_lookup_iff.mp hrow
    rw [entries_store] at hmem
    cases List.mem_singleton.mp hmem
    rfl
  exact ⟨by rintro bytes ⟨⟩; rfl, by decide, fun _ => Or.inl rfl⟩

end AttachmentsExample

/-- The copies have the one byte of the bundle. -/
theorem attachments_are_written_once_adoptions : ∃ s : AttachmentSystem Nat, (outcome s).active = [] ∧ BytesKept 3 s := by
  obtain ⟨s, hs, hout⟩ := Option.map_eq_some_iff.mp adoptions_end
  exact ⟨s, by rw [hout], attachments_are_written_once keepsOrganization_adoptions bytesRecorded_store (Run.of_foldlM hs)⟩

/-! ## The references -/

/-- In every run whose updates without a bundle leave their resources with the bundles that they hold, no step of a call other than
an upload removes or marks an attachment that a committed resource holds as its bundle; and in every run at all none other than an
upload's and the retention sweep's removes or marks one that the `metadata.attachments` of a committed message refer to. -/
theorem cleanups_respect_references {quota : Nat} {kind : ReferenceKind} {store : AttachmentStore} {ops : List (AttachmentOp Tx)}
    {s s' : AttachmentSystem Tx} {op : AttachmentOp Tx} {call : AttachmentCall} (hids : IdsKeepOrganization ops)
    (hr : Run (Guarded (BundleStillHeld kind) (ofPartial (attachmentStep quota))) (.idle store) ops s)
    (hstep : Guarded (BundleStillHeld kind) (ofPartial (attachmentStep quota)) s op s') (hcall : callOf s op = some call)
    (hrespects : call.respects kind) : KeepsReferenced kind s.store s'.store := by
  have hgood : Good (keptKinds (· = .references kind) call) s.store s'.store :=
    attachmentGood_of_run hids ⟨fun h => (by cases h), fun h => (by cases h), fun h => (by cases h)⟩
      (fun _ _ h haspect => h (Aspect.references.inj haspect).symm) hr hstep hcall
  exact hgood.keeps kind ⟨rfl, hrespects⟩

namespace AttachmentsExample

/-- The copy's resource is updated without a bundle after the adoptions, and then the deletion of the copy begins and reads that the
resource holds it. -/
def deletion : List (AttachmentOp Nat) :=
  adoptions ++ [ScriptOp.begin 2 (AttachmentCall.updateResource 7 "r" none)] ++ List.replicate 6 (ScriptOp.run 2 true) ++
    [ScriptOp.begin 3 (AttachmentCall.deleteAttachmentIfUnreferenced 9 "c")] ++ List.replicate 3 (ScriptOp.run 3 true)

theorem keepsOrganization_deletion : IdsKeepOrganization deletion := keepsOrganization_adoptions

/-- The attachment that a deletion is about. -/
def deleted : AttachmentCall → Option String
  | .deleteAttachmentIfUnreferenced _ id => some id
  | _ => none

/-- The steps that the guard admits. -/
def guardedStep (s : AttachmentSystem Nat) (op : AttachmentOp Nat) : Option (AttachmentSystem Nat) :=
  if BundleStillHeld .bundle s op then attachmentStep 3 s op else none

theorem deletion_runs : (deletion.foldlM guardedStep (.idle store)).map
    (fun s => ((callOf s (.run 3 true)).bind deleted, (guardedStep s (.run 3 true)).map fun s' => (outcome s').bundles)) =
    some (some "c", some [("r", some "c"), ("q", some "d")]) := by
  decide +kernel

/-- An update that has read the copy writes it back, while the release of the copy that another bundle has replaced is under way. -/
def stale : List (AttachmentOp Nat) :=
  adoptions ++ [ScriptOp.begin 2 (AttachmentCall.updateResource 7 "r" none)] ++ List.replicate 2 (ScriptOp.run 2 true) ++
    [ScriptOp.begin 3 (AttachmentCall.updateResource 8 "r" (some "d"))] ++ List.replicate 11 (ScriptOp.run 3 true) ++
    List.replicate 3 (ScriptOp.run 2 true)

end AttachmentsExample

/-- The step of the deletion leaves the row. -/
theorem cleanups_respect_references_deletion : ∃ s s' : AttachmentSystem Nat, attachmentStep 3 s (.run 3 true) = some s' ∧
    KeepsReferenced .bundle s.store s'.store := by
  obtain ⟨s, hs, hout⟩ := Option.map_eq_some_iff.mp deletion_runs
  obtain ⟨hdeleted, hstepped⟩ := Prod.mk.inj hout
  obtain ⟨s', hstep, _⟩ := Option.map_eq_some_iff.mp hstepped
  obtain ⟨call, hcall, hcopy⟩ := Option.bind_eq_some_iff.mp hdeleted
  have hguarded : Guarded (BundleStillHeld .bundle) (ofPartial (attachmentStep 3)) s (.run 3 true) s' := by
    unfold guardedStep at hstep
    split at hstep
    · next hheld => exact ⟨hheld, hstep⟩
    · cases hstep
  have hrespects : call.respects .bundle := by
    cases call <;> first | exact trivial | cases hcopy
  exact ⟨s, s', hguarded.2,
    cleanups_respect_references keepsOrganization_deletion (Run.guarded_of_foldlM hs) hguarded hcall hrespects⟩

/-- Without the condition the release then removes the copy that the resource holds. -/
example : (stale.foldlM (attachmentStep 3) (.idle store)).map (fun s =>
    ((outcome s).bundles, (outcome s).rows.map (·.1), (attachmentStep 3 s (.run 3 true)).map fun s' => (outcome s').rows.map (·.1))) =
    some ([("r", some "c"), ("q", some "d")], ["d", "c", "b"], some ["d", "b"]) := by
  decide +kernel

end FirstTree
