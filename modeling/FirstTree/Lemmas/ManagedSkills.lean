import FirstTree.Client.ManagedSkills
import FirstTree.Lemmas.ManagedState

/-!
# The steps of the managed Skills transactions

The journal of a transaction from a normal state is read back at every phase. What the programs of an install, a removal and the
recovery do, in terms of what the journal and the state file are read as and of what stands at the target, the staging and the backup.
-/

namespace FirstTree

open Durable ManagedStateAux

namespace ManagedSkillsAux

variable {τ : Type} {o : ManagedSkillsOptions τ}

/-! ## Journals -/

theorem safeTarget_of_entry {entry : ManagedSkillEntry} (h : isManagedSkillEntry entry = true) :
    isSafePersistedTarget entry.target = true := by
  simp only [isManagedSkillEntry, Bool.and_eq_true] at h
  exact h.1.1.1.1.2

theorem sha256_of_entry {entry : ManagedSkillEntry} (h : isManagedSkillEntry entry = true) :
    isSha256Digest entry.installedDigest = true := by
  simp only [isManagedSkillEntry, Bool.and_eq_true] at h
  exact h.1.1.1.1.1.2

/-- A target that may be persisted has a name. -/
theorem name_of_safeTarget {target : WorkspacePath} (h : isSafePersistedTarget target = true) : nameOf target ≠ "" := by
  simp only [isSafePersistedTarget, Bool.and_eq_true] at h
  intro hname
  rw [hname] at h
  exact absurd h.2 (by decide)

theorem notEmpty_of_safeTarget {target : WorkspacePath} (h : isSafePersistedTarget target = true) : isEmptyPath target = false := by
  have hname := name_of_safeTarget h
  rw [isEmptyPath, Bool.or_eq_false_iff]
  constructor <;>
  · rw [beq_eq_false_iff_ne]
    rintro rfl
    exact hname rfl

/-- The journal of an install at a phase, with the state after it as it is read back. -/
def installJournal (operationId : String) (staged : StagedManagedSkill) (backup : Option WorkspacePath) (state after : ManagedState)
    (phase : JournalPhase) : ManagedSkillsJournal :=
  { operationId := operationId
    operation := .install
    phase := phase
    target := staged.entry.target
    staging := some staged.staging
    backup := backup
    expectedInstalledDigest := some staged.entry.installedDigest
    beforeState := state
    afterState := after }

/-- The journal of a removal at a phase. -/
def removeJournal (operationId : String) (entry : ManagedSkillEntry) (backup : WorkspacePath) (state after : ManagedState)
    (phase : JournalPhase) : ManagedSkillsJournal :=
  { operationId := operationId
    operation := .remove
    phase := phase
    target := entry.target
    staging := none
    backup := some backup
    expectedInstalledDigest := none
    beforeState := state
    afterState := after }

/-- A journal of sound fields with a sound transition between the states read back is read back. -/
theorem readJournal_of {C : Collation} {journal : ManagedSkillsJournal} {beforeState afterState : ManagedState}
    (hfields : (journal.operationId == "" || isEmptyPath journal.target || journal.staging.any isEmptyPath ||
      journal.backup.any isEmptyPath) = false)
    (hdigest : (journal.expectedInstalledDigest.any fun digest => !isSha256Digest digest) = false)
    (hbefore : parseEmbeddedManagedState C journal.beforeState = some beforeState)
    (hafter : parseEmbeddedManagedState C journal.afterState = some afterState)
    (hvalid : validateJournalTransition C { journal with beforeState := beforeState, afterState := afterState } = none) :
    readManagedSkillsJournal C (some (.value journal)) =
      .current { journal with beforeState := beforeState, afterState := afterState } := by
  rw [readManagedSkillsJournal, readJournalValue, if_neg (by simp only [hfields, Bool.false_eq_true, not_false_eq_true]),
    if_neg (by simp only [hdigest, Bool.false_eq_true, not_false_eq_true]), hbefore, hafter]
  simp only [hvalid]

/-- The journal of an install is read back at every phase. -/
theorem read_installJournal {C : Collation} {operationId : String} {staged : StagedManagedSkill} {backup : Option WorkspacePath}
    {state after : ManagedState} (h : Normal C state) (ha : Accepts state staged.entry) (hid : operationId ≠ "")
    (hs : isRelatedJournalTemporaryTarget staged.entry.target staged.staging ".staging" = true)
    (hb : ∀ b ∈ backup, isRelatedJournalTemporaryTarget staged.entry.target b ".backup" = true)
    (hafter : parseEmbeddedManagedState C after = some (installedState C state staged.entry)) (phase : JournalPhase) :
    readManagedSkillsJournal C (some (.value (installJournal operationId staged backup state after phase))) =
      .current (installJournal operationId staged backup state (installedState C state staged.entry) phase) := by
  have htarget := safeTarget_of_entry ha.valid
  have hempty : (operationId == "" || isEmptyPath staged.entry.target || (some staged.staging).any isEmptyPath ||
      backup.any isEmptyPath) = false := by
    have hbackup : backup.any isEmptyPath = false := by
      cases backup with
      | none => rfl
      | some b => simpa using (related_iff_some (hb b rfl)).not_empty
    simp [hid, notEmpty_of_safeTarget htarget, (related_iff_some hs).not_empty, hbackup]
  have hbackup : backup.any (fun b => !isRelatedJournalTemporaryTarget staged.entry.target b ".backup") = false := by
    cases backup with
    | none => rfl
    | some b => simp [hb b rfl]
  have hvalid : validateJournalTransition C
      (installJournal operationId staged backup state (installedState C state staged.entry) phase) = none := by
    have hbefore := entriesAt_of_accepts h ha
    have hafter' := entriesAt_installedState h ha
    have hmatch := match_installedState (C := C) state staged.entry
    have hfence : state.resourceConfigVersion = (installedState C state staged.entry).resourceConfigVersion := rfl
    simp only [validateJournalTransition, installJournal, htarget, Option.any_some, hs, hbackup, hmatch, hafter', hfence,
      Bool.not_true, Bool.false_eq_true, if_false, bne_self_eq_false]
    rcases hbefore with hnone | ⟨e, he, hkey⟩
    · simp [hnone]
    · simp [he, hkey]
  exact readJournal_of hempty (by simp [installJournal, sha256_of_entry ha.valid]) (parse_of_normal h) hafter hvalid

/-- The journal of a removal is read back at every phase. -/
theorem read_removeJournal {C : Collation} {operationId : String} {entry : ManagedSkillEntry} {backup : WorkspacePath}
    {state after : ManagedState} (h : Normal C state) (hmem : entry ∈ state.skills) (hid : operationId ≠ "")
    (hb : isRelatedJournalTemporaryTarget entry.target backup ".backup" = true)
    (hafter : parseEmbeddedManagedState C after = some (removedState C state entry)) (phase : JournalPhase) :
    readManagedSkillsJournal C (some (.value (removeJournal operationId entry backup state after phase))) =
      .current (removeJournal operationId entry backup state (removedState C state entry) phase) := by
  have htarget := safeTarget_of_entry (h.consistent.valid entry hmem)
  have hempty : (operationId == "" || isEmptyPath entry.target || (none : Option WorkspacePath).any isEmptyPath ||
      (some backup).any isEmptyPath) = false := by
    simp [hid, notEmpty_of_safeTarget htarget, (related_iff_some hb).not_empty]
  have hvalid : validateJournalTransition C
      (removeJournal operationId entry backup state (removedState C state entry) phase) = none := by
    have hbefore := entriesAt_of_mem h hmem
    have hafter' := entriesAt_removedState h hmem
    have hmatch := match_removedState (C := C) state entry
    have hfence : state.resourceConfigVersion = (removedState C state entry).resourceConfigVersion := rfl
    simp [validateJournalTransition, removeJournal, htarget, hb, hmatch, hafter', hbefore, hfence]
  exact readJournal_of hempty rfl (parse_of_normal h) hafter hvalid

/-! ## Steps -/

section Steps

variable {crash : Workspace τ → Prop} {w : Workspace τ}

@[simp] theorem nodes_setJournal (journal : Option JournalFile) (w : Workspace τ) : (w.setJournal journal).nodes = w.nodes := rfl

@[simp] theorem state_setJournal (journal : Option JournalFile) (w : Workspace τ) : (w.setJournal journal).state = w.state := rfl

@[simp] theorem journal_setJournal (journal : Option JournalFile) (w : Workspace τ) : (w.setJournal journal).journal = journal := rfl

@[simp] theorem nodes_setState (state : ManagedStateFile) (w : Workspace τ) : (w.setState state).nodes = w.nodes := rfl

@[simp] theorem state_setState (state : ManagedStateFile) (w : Workspace τ) : (w.setState state).state = some state := rfl

@[simp] theorem journal_setState (state : ManagedStateFile) (w : Workspace τ) : (w.setState state).journal = w.journal := rfl

@[simp] theorem state_rm (path : WorkspacePath) (w : Workspace τ) : (w.rm path).state = w.state := rfl

@[simp] theorem journal_rm (path : WorkspacePath) (w : Workspace τ) : (w.rm path).journal = w.journal := rfl

@[simp] theorem nodes_rm_self (path : WorkspacePath) (w : Workspace τ) : (w.rm path).nodes path = none := Function.update_self ..

theorem nodes_rm_of_ne {path p : WorkspacePath} (h : p ≠ path) (w : Workspace τ) : (w.rm path).nodes p = w.nodes p :=
  Function.update_of_ne h ..

@[simp] theorem state_rename (source target : WorkspacePath) (w : Workspace τ) : (w.rename source target).state = w.state := rfl

@[simp] theorem journal_rename (source target : WorkspacePath) (w : Workspace τ) : (w.rename source target).journal = w.journal := rfl

@[simp] theorem nodes_rename_target (source target : WorkspacePath) (w : Workspace τ) :
    (w.rename source target).nodes target = w.nodes source := Function.update_self ..

theorem nodes_rename_source {source target : WorkspacePath} (h : source ≠ target) (w : Workspace τ) :
    (w.rename source target).nodes source = none := by
  simp [Workspace.rename, Function.update_of_ne h]

theorem nodes_rename_of_ne {source target p : WorkspacePath} (hs : p ≠ source) (ht : p ≠ target) (w : Workspace τ) :
    (w.rename source target).nodes p = w.nodes p := by
  simp [Workspace.rename, Function.update_of_ne ht, Function.update_of_ne hs]

/-- Persisting a state over a current one of the same fence. -/
theorem meets_persist {post : Except ManagedSkillsError ManagedState → Workspace τ → Prop}
    {current candidate persisted : ManagedState} (hr : readManagedStateResult o.collation w.state = .current current)
    (hf : candidate.resourceConfigVersion = current.resourceConfigVersion)
    (hp : parseEmbeddedManagedState o.collation candidate = some persisted) :
    (persistStateMonotonic o candidate).Meets crash post w ↔
      crash (w.setState (.value persisted)) ∧ post (.ok persisted) (w.setState (.value persisted)) := by
  have hlt : ¬ candidate.resourceConfigVersion < current.resourceConfigVersion := by omega
  simp only [persistStateMonotonic, Program.meets_bind, Program.meets_read, Program.meets_onOk_ok, hr, if_neg hlt,
    writeManagedState, hp, Program.meets_write, Program.meets_pure]

/-- The journal to recover, when it is sound and the state is of its fence. -/
theorem meets_load {post : Except ManagedSkillsError (Option (ManagedSkillsJournal × ManagedState)) → Workspace τ → Prop}
    {journal : ManagedSkillsJournal} {current : ManagedState}
    (hj : readManagedSkillsJournal o.collation w.journal = .current journal)
    (ht : assertManagedTarget o journal.target = .ok ())
    (hs : ∀ p ∈ journal.staging, assertTemporaryTarget o p ".staging" = .ok ())
    (hb : ∀ p ∈ journal.backup, assertTemporaryTarget o p ".backup" = .ok ())
    (hr : readManagedStateResult o.collation w.state = .current current)
    (hf : journal.afterState.resourceConfigVersion = current.resourceConfigVersion) :
    (loadPendingJournal o).Meets crash post w ↔ post (.ok (some (journal, current))) w := by
  have hlt : ¬ journal.afterState.resourceConfigVersion < current.resourceConfigVersion := by omega
  have hstaging : journal.staging.forM (fun p => assertTemporaryTarget o p ".staging") = .ok () := by
    cases h : journal.staging with
    | none => rfl
    | some p => exact hs p h
  have hbackup : journal.backup.forM (fun p => assertTemporaryTarget o p ".backup") = .ok () := by
    cases h : journal.backup with
    | none => rfl
    | some p => exact hb p h
  simp only [loadPendingJournal, Program.meets_bind, Program.meets_read, Program.meets_onOk_ok, hj, Program.meets_check, ht,
    hstaging, hbackup, hr, if_neg hlt, Program.meets_pure]

/-- The recovery of a sound journal whose temporary paths hold directories or nothing. -/
theorem meets_recover {post : Except ManagedSkillsError Unit → Workspace τ → Prop}
    {journal : ManagedSkillsJournal} {current : ManagedState}
    (hj : readManagedSkillsJournal o.collation w.journal = .current journal)
    (ht : assertManagedTarget o journal.target = .ok ())
    (hs : ∀ p ∈ journal.staging, assertTemporaryTarget o p ".staging" = .ok () ∧ resolveTemporary o w p = .ok ())
    (hb : ∀ p ∈ journal.backup, assertTemporaryTarget o p ".backup" = .ok () ∧ resolveTemporary o w p = .ok ())
    (hr : readManagedStateResult o.collation w.state = .current current)
    (hf : journal.afterState.resourceConfigVersion = current.resourceConfigVersion) :
    (recoverPendingJournal o).Meets crash post w ↔
      (match journal.operation with
        | .install => recoverInterruptedInstall o journal
        | .remove => recoverInterruptedRemoval o journal current).Meets crash post w := by
  have hstaging : journal.staging.forM (resolveTemporary o w) = .ok () := by
    cases h : journal.staging with
    | none => rfl
    | some p => exact (hs p h).2
  have hbackup : journal.backup.forM (resolveTemporary o w) = .ok () := by
    cases h : journal.backup with
    | none => rfl
    | some p => exact (hb p h).2
  rw [recoverPendingJournal, Program.meets_bind, meets_load hj ht (fun p hp => (hs p hp).1) (fun p hp => (hb p hp).1) hr hf]
  cases hoperation : journal.operation <;>
    simp only [Program.meets_bind, Program.meets_read, Program.meets_onOk_ok, Program.meets_check, hstaging, hbackup, hoperation]

@[simp] theorem meets_clear {post : Except ManagedSkillsError Unit → Workspace τ → Prop} :
    (clearManagedSkillsJournal : WorkspaceProgram τ Unit).Meets crash post w ↔
      crash (w.setJournal none) ∧ post (.ok ()) (w.setJournal none) := Iff.rfl

@[simp] theorem meets_writeJournal {post : Except ManagedSkillsError Unit → Workspace τ → Prop} {journal : ManagedSkillsJournal} :
    (writeManagedSkillsJournal journal).Meets crash post w ↔
      crash (w.setJournal (some (.value journal))) ∧ post (.ok ()) (w.setJournal (some (.value journal))) := Iff.rfl

@[simp] theorem meets_writeJournalPhase {post : Except ManagedSkillsError ManagedSkillsJournal → Workspace τ → Prop}
    {journal : ManagedSkillsJournal} {phase : JournalPhase} :
    (writeJournalPhase journal phase).Meets crash post w ↔
      crash (w.setJournal (some (.value { journal with phase := phase }))) ∧
        post (.ok { journal with phase := phase }) (w.setJournal (some (.value { journal with phase := phase }))) := Iff.rfl

@[simp] theorem meets_rmOptional_some {post : Except ManagedSkillsError Unit → Workspace τ → Prop} {path : WorkspacePath} :
    (rmOptional (some path)).Meets crash post w ↔ crash (w.rm path) ∧ post (.ok ()) (w.rm path) := Iff.rfl

@[simp] theorem meets_rmOptional_none {post : Except ManagedSkillsError Unit → Workspace τ → Prop} :
    (rmOptional none).Meets crash post w ↔ post (.ok ()) w := Iff.rfl

/-- A rename of what stands at a path to one where nothing does. -/
theorem meets_renameNode {post : Except ManagedSkillsError Unit → Workspace τ → Prop} {source target : WorkspacePath}
    (hs : (w.nodes source).isSome = true) (ht : w.nodes target = none) :
    (renameNode source target).Meets crash post w ↔
      crash (w.rename source target) ∧ post (.ok ()) (w.rename source target) := by
  simp only [renameNode, Program.meets_bind, Program.meets_read, Program.meets_onOk_ok, hs, ht, Option.isSome_none, Bool.not_true,
    Bool.false_eq_true, if_false, Program.meets_write]

end Steps

/-! ## Temporary paths in a workspace -/

/-- A path related to a target under an allowed root is a temporary path. -/
theorem assertTemporary_of_related {target temporary : WorkspacePath} {suffix : String} (h : Related target temporary suffix)
    (ht : assertManagedTarget o target = .ok ()) : assertTemporaryTarget o temporary suffix = .ok () := by
  have hroot : parentOf target ∈ o.allowedRoots := by
    by_contra hn
    have hout : (!o.allowedRoots.contains (parentOf target) || decide (target.length < 3)) = true := by simp [hn]
    rw [assertManagedTarget, if_pos hout] at ht
    split at ht
    · exact absurd ht (by simp)
    · exact absurd ht (by simp)
  have hdot : startsWith (nameOf temporary) "." = true := by
    refine List.isPrefixOf_iff_prefix.2 (List.IsPrefix.trans ?_ h.starts)
    rw [toList_append, toList_append, List.append_assoc]
    exact List.prefix_append _ _
  have hmark : includesText (nameOf temporary) ".ft-" = true := by
    refine decide_eq_true (List.IsInfix.trans ?_ h.starts.isInfix)
    rw [toList_append]
    exact (List.suffix_append _ _).isInfix
  have hend : endsWith (nameOf temporary) suffix = true := List.isSuffixOf_iff_suffix.2 h.ends
  unfold assertTemporaryTarget
  rw [if_neg]
  simp [h.parent, hroot, hdot, hmark, hend]

/-- A staging path in a workspace where a directory or nothing stands at it. -/
theorem resolve_staging {target staging : WorkspacePath} (h : Related target staging ".staging")
    (ht : assertManagedTarget o target = .ok ()) {w : Workspace τ}
    (hn : assertDirectoryIfPresent "temporary" staging (w.nodes staging) = .ok ()) :
    resolveTemporary o w staging = .ok () := by
  have hend : endsWith (nameOf staging) ".staging" = true := List.isSuffixOf_iff_suffix.2 h.ends
  simp only [resolveTemporary, hend, if_true, assertTemporary_of_related h ht]
  exact hn

/-- A backup path in a workspace where a directory or nothing stands at it. -/
theorem resolve_backup {target backup : WorkspacePath} (h : Related target backup ".backup")
    (ht : assertManagedTarget o target = .ok ()) {w : Workspace τ}
    (hn : assertDirectoryIfPresent "temporary" backup (w.nodes backup) = .ok ()) :
    resolveTemporary o w backup = .ok () := by
  have hend : endsWith (nameOf backup) ".staging" = false := by
    rw [Bool.eq_false_iff]
    intro hs
    have hsuffix : ".backup".toList <:+ ".staging".toList :=
      List.suffix_of_suffix_length_le h.ends (List.isSuffixOf_iff_suffix.1 hs) (by decide)
    exact absurd hsuffix (by decide)
  simp only [resolveTemporary, hend, Bool.false_eq_true, if_false, assertTemporary_of_related h ht]
  exact hn

/-! ## The branches of the recovery -/

section Branches

variable {crash : Workspace τ → Prop} {post : Except ManagedSkillsError Unit → Workspace τ → Prop} {w : Workspace τ}
  {journal : ManagedSkillsJournal} {d : Option String} {current : ManagedState}

/-- The target has the digest that was to be installed: the install is committed. -/
theorem meets_recoverInstall_completed (hd : digestManagedTarget o w journal.target = .ok journal.expectedInstalledDigest) :
    (recoverInterruptedInstall o journal).Meets crash post w ↔
      (do
        let _ ← persistStateMonotonic o journal.afterState
        rmOptional journal.staging
        rmOptional journal.backup
        clearManagedSkillsJournal : WorkspaceProgram τ Unit).Meets crash post w := by
  unfold recoverInterruptedInstall
  rw [Program.meets_bind, Program.meets_read, Program.meets_onOk_ok, Program.meets_bind, Program.meets_read, Program.meets_onOk_ok,
    Program.meets_bind, Program.meets_read, Program.meets_onOk_ok, hd, Program.meets_bind, Program.meets_check,
    Program.meets_onOk_ok, if_pos rfl]

/-- The target has another digest: what stands at the target and the backup decides. -/
theorem meets_recoverInstall_else (hd : digestManagedTarget o w journal.target = .ok d) (hne : d ≠ journal.expectedInstalledDigest) :
    (recoverInterruptedInstall o journal).Meets crash post w ↔
      (if journal.phase = .prepared ∧ (w.nodes journal.target).isSome = true ∧
          (!journal.backup.any fun backup => (w.nodes backup).isSome) = true then do
        let _ ← persistStateMonotonic o journal.beforeState
        rmOptional journal.staging
        clearManagedSkillsJournal
      else
        match journal.backup, (journal.backup.any fun backup => (w.nodes backup).isSome) && !(w.nodes journal.target).isSome with
        | some backup, true => do
          Program.write (Workspace.rename backup journal.target)
          let _ ← persistStateMonotonic o journal.beforeState
          rmOptional journal.staging
          clearManagedSkillsJournal
        | _, _ =>
          if (!(journal.backup.any fun backup => (w.nodes backup).isSome) && !(w.nodes journal.target).isSome) = true then do
            let _ ← persistStateMonotonic o journal.beforeState
            rmOptional journal.staging
            clearManagedSkillsJournal
          else throw (.fatal ("cannot safely recover interrupted install for " ++ portable journal.target)) :
        WorkspaceProgram τ Unit).Meets crash post w := by
  unfold recoverInterruptedInstall
  apply Iff.trans
  · rw [Program.meets_bind, Program.meets_read, Program.meets_onOk_ok, Program.meets_bind, Program.meets_read, Program.meets_onOk_ok,
      Program.meets_bind, Program.meets_read, Program.meets_onOk_ok, hd, Program.meets_bind, Program.meets_check,
      Program.meets_onOk_ok, if_neg hne]
  · rfl

/-- The old target stands and has not been moved: the install is discarded. -/
theorem meets_recoverInstall_discarded (hd : digestManagedTarget o w journal.target = .ok d)
    (hne : d ≠ journal.expectedInstalledDigest) (hp : journal.phase = .prepared) (ht : (w.nodes journal.target).isSome = true)
    (hb : (journal.backup.any fun backup => (w.nodes backup).isSome) = false) :
    (recoverInterruptedInstall o journal).Meets crash post w ↔
      (do
        let _ ← persistStateMonotonic o journal.beforeState
        rmOptional journal.staging
        clearManagedSkillsJournal : WorkspaceProgram τ Unit).Meets crash post w := by
  rw [meets_recoverInstall_else hd hne, if_pos ⟨hp, ht, by rw [hb]; rfl⟩]

/-- Nothing stands at the target nor at the backup: the install is discarded. -/
theorem meets_recoverInstall_uncommitted (hd : digestManagedTarget o w journal.target = .ok d)
    (hne : d ≠ journal.expectedInstalledDigest) (ht : (w.nodes journal.target).isSome = false)
    (hb : (journal.backup.any fun backup => (w.nodes backup).isSome) = false) :
    (recoverInterruptedInstall o journal).Meets crash post w ↔
      (do
        let _ ← persistStateMonotonic o journal.beforeState
        rmOptional journal.staging
        clearManagedSkillsJournal : WorkspaceProgram τ Unit).Meets crash post w := by
  rw [meets_recoverInstall_else hd hne, if_neg (by simp [ht])]
  simp only [hb, ht, Bool.false_and, Bool.not_false, Bool.and_self, if_true]
  cases journal.backup <;> rfl

/-- Only the backup stands: it is moved back to the target. -/
theorem meets_recoverInstall_rolledBack {backup : WorkspacePath} (hd : digestManagedTarget o w journal.target = .ok d)
    (hne : d ≠ journal.expectedInstalledDigest) (ht : (w.nodes journal.target).isSome = false)
    (hj : journal.backup = some backup) (hb : (w.nodes backup).isSome = true) :
    (recoverInterruptedInstall o journal).Meets crash post w ↔
      (do
        Program.write (Workspace.rename backup journal.target)
        let _ ← persistStateMonotonic o journal.beforeState
        rmOptional journal.staging
        clearManagedSkillsJournal : WorkspaceProgram τ Unit).Meets crash post w := by
  rw [meets_recoverInstall_else hd hne, if_neg (by simp [ht])]
  simp only [hj, Option.any_some, hb, ht, Bool.not_false, Bool.and_self]

/-- The target has not been moved: the removal is discarded. -/
theorem meets_recoverRemoval_discarded (hp : journal.phase = .prepared) (ht : (w.nodes journal.target).isSome = true)
    (hb : (journal.backup.any fun backup => (w.nodes backup).isSome) = false) :
    (recoverInterruptedRemoval o journal current).Meets crash post w ↔
      (do
        let _ ← persistStateMonotonic o journal.beforeState
        clearManagedSkillsJournal : WorkspaceProgram τ Unit).Meets crash post w := by
  unfold recoverInterruptedRemoval
  rw [Program.meets_bind, Program.meets_read, Program.meets_onOk_ok, Program.meets_bind, Program.meets_read, Program.meets_onOk_ok,
    if_pos ⟨hp, ht, by rw [hb]; rfl⟩]

/-- The target is gone and the state is the one after the removal: the removal is completed. -/
theorem meets_recoverRemoval_completed (ht : (w.nodes journal.target).isSome = false)
    (hs : stateEquivalent o.collation current journal.afterState = true) :
    (recoverInterruptedRemoval o journal current).Meets crash post w ↔
      (do
        rmOptional journal.backup
        clearManagedSkillsJournal : WorkspaceProgram τ Unit).Meets crash post w := by
  unfold recoverInterruptedRemoval
  rw [Program.meets_bind, Program.meets_read, Program.meets_onOk_ok, Program.meets_bind, Program.meets_read, Program.meets_onOk_ok,
    if_neg (by simp [ht]), if_pos (by simp [ht, hs])]

/-- Only the backup stands and the state is another: it is moved back to the target. -/
theorem meets_recoverRemoval_rolledBack {backup : WorkspacePath} (ht : (w.nodes journal.target).isSome = false)
    (hs : stateEquivalent o.collation current journal.afterState = false)
    (hj : journal.backup = some backup) (hb : (w.nodes backup).isSome = true) :
    (recoverInterruptedRemoval o journal current).Meets crash post w ↔
      (do
        Program.write (Workspace.rename backup journal.target)
        let _ ← persistStateMonotonic o journal.beforeState
        clearManagedSkillsJournal : WorkspaceProgram τ Unit).Meets crash post w := by
  unfold recoverInterruptedRemoval
  rw [Program.meets_bind, Program.meets_read, Program.meets_onOk_ok, Program.meets_bind, Program.meets_read, Program.meets_onOk_ok,
    if_neg (by simp [ht]), if_neg (by simp [hs])]
  simp only [hj, Option.any_some, hb, ht, Bool.not_false, Bool.and_self]

end Branches

end ManagedSkillsAux

end FirstTree
