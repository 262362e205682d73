import FirstTree.Lemmas.SkillInstall

/-!
# Removals that are cut short

The workspaces a removal leaves when it is cut short: every step of the removal and of its recovery leaves one of them or strands it,
and recovery settles each.
-/

namespace FirstTree

open Durable Runs ManagedStateAux

variable {τ : Type}

namespace SkillRecoveryAux

open ManagedSkillsAux

variable {o : ManagedSkillsOptions τ} {w₀ w : Workspace τ} {entry : ManagedSkillEntry} {operationId backupToken : String}
  {state cur : ManagedState} {φ : JournalPhase}

/-- A removal that may begin. -/
structure Removing (o : ManagedSkillsOptions τ) (w₀ : Workspace τ) (entry : ManagedSkillEntry) (operationId backupToken : String)
    (state : ManagedState) : Prop where
  journal : w₀.journal = none
  read : readManagedStateResult o.collation w₀.state = .current state
  named : operationId ≠ ""
  token : isToken backupToken.toList = true
  mem : entry ∈ state.skills
  target : assertManagedTarget o entry.target = .ok ()
  fresh : w₀.nodes (SkillTransaction.remove entry operationId backupToken).backup = none

/-- The path of the backup of a removal. -/
def removeBackup (entry : ManagedSkillEntry) (backupToken : String) : WorkspacePath :=
  temporaryPath entry.target backupToken ".backup"

/-- A target under an allowed root has at least three segments. -/
theorem length_of_target {target : WorkspacePath} (h : assertManagedTarget o target = .ok ()) : 3 ≤ target.length := by
  by_contra hlt
  have hout : (!o.allowedRoots.contains (parentOf target) || decide (target.length < 3)) = true := by
    simp only [Bool.or_eq_true, decide_eq_true_eq]
    exact .inr (by omega)
  rw [assertManagedTarget, if_pos hout] at h
  split at h
  · exact absurd h (by simp)
  · exact absurd h (by simp)

namespace Removing

variable (h : Removing o w₀ entry operationId backupToken state)
include h

theorem normal : Normal o.collation state := normal_of_read h.read

theorem safe : isSafePersistedTarget entry.target = true := safeTarget_of_entry (h.normal.consistent.valid entry h.mem)

theorem relatedBackup_eq : isRelatedJournalTemporaryTarget entry.target (removeBackup entry backupToken) ".backup" = true :=
  related_temporaryPath (name_of_safeTarget h.safe) h.token

theorem relatedBackup : Related entry.target (removeBackup entry backupToken) ".backup" := related_iff_some h.relatedBackup_eq

theorem backup_ne_target : removeBackup entry backupToken ≠ entry.target := h.relatedBackup.ne_target

theorem quarantine_ne_target : managedTargetQuarantinePath o entry.target ≠ entry.target := by
  intro heq
  have := length_of_target h.target
  rw [← heq] at this
  exact absurd this (by simp [managedTargetQuarantinePath])

theorem quarantine_ne_backup : managedTargetQuarantinePath o entry.target ≠ removeBackup entry backupToken := by
  intro heq
  have hlen := h.relatedBackup.length_eq
  have := length_of_target h.target
  rw [← hlen, ← heq] at this
  exact absurd this (by simp [managedTargetQuarantinePath])

/-- The journal is read back, at every phase and with the state after the removal in both forms. -/
theorem readJournal {after : ManagedState}
    (hafter : parseEmbeddedManagedState o.collation after = some (removedState o.collation state entry)) (φ : JournalPhase) :
    readManagedSkillsJournal o.collation (some (.value
        (removeJournal operationId entry (removeBackup entry backupToken) state after φ))) =
      .current (removeJournal operationId entry (removeBackup entry backupToken) state (removedState o.collation state entry) φ) :=
  read_removeJournal h.normal h.mem h.named h.relatedBackup_eq hafter φ

end Removing

/-- What is common to the workspaces a removal leaves: its journal at a phase, a state, and the rest of the files. -/
structure RemoveLeft (o : ManagedSkillsOptions τ) (w₀ : Workspace τ) (entry : ManagedSkillEntry) (operationId backupToken : String)
    (state : ManagedState) (φ : JournalPhase) (cur : ManagedState) (w : Workspace τ) : Prop where
  journal : readManagedSkillsJournal o.collation w.journal =
    .current (removeJournal operationId entry (removeBackup entry backupToken) state (removedState o.collation state entry) φ)
  read : readManagedStateResult o.collation w.state = .current cur
  elsewhere : ∀ p, p ≠ entry.target → p ≠ removeBackup entry backupToken → p ≠ managedTargetQuarantinePath o entry.target →
    w.nodes p = w₀.nodes p

/-- What stands at the target and at the backup of a removal that was cut short: the target with the journal still prepared; no target
and its backup; or no target in the state after the removal. -/
inductive RemoveNodes (w₀ : Workspace τ) (entry : ManagedSkillEntry) (backupToken : String) (state after : ManagedState)
    (φ : JournalPhase) (cur : ManagedState) (w : Workspace τ) : Prop where
  | untouched (phase : φ = .prepared) (present : (w₀.nodes entry.target).isSome = true)
      (target : w.nodes entry.target = w₀.nodes entry.target)
      (backup : w.nodes (removeBackup entry backupToken) = none) (state : cur = state)
  | moved (target : w.nodes entry.target = none) (backup : w.nodes (removeBackup entry backupToken) = w₀.nodes entry.target)
      (directory : ∃ t, w.nodes (removeBackup entry backupToken) = some (.directory t)) (state : cur = state)
  | removed (target : w.nodes entry.target = none)
      (backup : w.nodes (removeBackup entry backupToken) = none ∨ ∃ t, w.nodes (removeBackup entry backupToken) = some (.directory t))
      (state : cur = after)

/-- A workspace that a removal leaves when it is cut short. -/
def RemoveCrashed (o : ManagedSkillsOptions τ) (w₀ : Workspace τ) (entry : ManagedSkillEntry) (operationId backupToken : String)
    (state : ManagedState) (w : Workspace τ) : Prop :=
  Settled o (.remove entry operationId backupToken) w₀ w ∨
    ∃ φ cur, RemoveLeft o w₀ entry operationId backupToken state φ cur w ∧
      RemoveNodes w₀ entry backupToken state (removedState o.collation state entry) φ cur w

/-- The conditions of the recovery of a removal: what its steps may leave, and what its end is. -/
abbrev RemoveRecovers (o : ManagedSkillsOptions τ) (w₀ : Workspace τ) (entry : ManagedSkillEntry) (operationId backupToken : String)
    (state : ManagedState) (p : WorkspaceProgram τ Unit) (w : Workspace τ) : Prop :=
  p.Meets (fun t => RemoveCrashed o w₀ entry operationId backupToken state t ∨ Stranded o t)
    (fun r t => r = .ok () ∧ Settled o (.remove entry operationId backupToken) w₀ t) w

namespace RemoveLeft

/-- The state file is replaced by another state of the transaction. -/
theorem setState {next : ManagedState} (hl : RemoveLeft o w₀ entry operationId backupToken state φ cur w)
    (hn : Normal o.collation next) : RemoveLeft o w₀ entry operationId backupToken state φ next (w.setState (.value next)) :=
  { journal := hl.journal, read := read_of_normal hn, elsewhere := hl.elsewhere }

/-- The journal is written at another phase, with the state after the removal in either form. -/
theorem setJournal (h : Removing o w₀ entry operationId backupToken state)
    (hl : RemoveLeft o w₀ entry operationId backupToken state φ cur w) {after : ManagedState}
    (hafter : parseEmbeddedManagedState o.collation after = some (removedState o.collation state entry)) (next : JournalPhase) :
    RemoveLeft o w₀ entry operationId backupToken state next cur (w.setJournal (some (.value
      (removeJournal operationId entry (removeBackup entry backupToken) state after next)))) :=
  { journal := h.readJournal hafter next, read := hl.read, elsewhere := hl.elsewhere }

/-- The backup is removed. -/
theorem rmBackup (hl : RemoveLeft o w₀ entry operationId backupToken state φ cur w) :
    RemoveLeft o w₀ entry operationId backupToken state φ cur (w.rm (removeBackup entry backupToken)) :=
  { journal := hl.journal
    read := hl.read
    elsewhere := fun p ht hb hq => (nodes_rm_of_ne hb w).trans (hl.elsewhere p ht hb hq) }

/-- The backup takes the place of the target. -/
theorem restore (hl : RemoveLeft o w₀ entry operationId backupToken state φ cur w) :
    RemoveLeft o w₀ entry operationId backupToken state φ cur (w.rename (removeBackup entry backupToken) entry.target) :=
  { journal := hl.journal
    read := hl.read
    elsewhere := fun p ht hb hq => (nodes_rename_of_ne hb ht w).trans (hl.elsewhere p ht hb hq) }

/-- The target is moved to the backup. -/
theorem moveAway (hl : RemoveLeft o w₀ entry operationId backupToken state φ cur w) :
    RemoveLeft o w₀ entry operationId backupToken state φ cur (w.rename entry.target (removeBackup entry backupToken)) :=
  { journal := hl.journal
    read := hl.read
    elsewhere := fun p ht hb hq => (nodes_rename_of_ne ht hb w).trans (hl.elsewhere p ht hb hq) }

end RemoveLeft

/-- A removal whose target stands, without its backup, is settled when its journal is removed. -/
theorem settled_of_kept (h : Removing o w₀ entry operationId backupToken state)
    (hl : RemoveLeft o w₀ entry operationId backupToken state φ state w) (ht : w.nodes entry.target = w₀.nodes entry.target)
    (hb : w.nodes (removeBackup entry backupToken) = none) :
    Settled o (.remove entry operationId backupToken) w₀ (w.setJournal none) where
  journal := rfl
  staging p hp := absurd hp (by simp [SkillTransaction.staging])
  backup := hb
  atomic := ⟨state, h.read, .inl ⟨ht, hl.read⟩⟩
  elsewhere p hpt _ hpb hpq := hl.elsewhere p hpt hpb hpq

/-- A removal whose target is gone, without its backup, is settled when its journal is removed. -/
theorem settled_of_removed (h : Removing o w₀ entry operationId backupToken state)
    (hl : RemoveLeft o w₀ entry operationId backupToken state φ (removedState o.collation state entry) w)
    (ht : w.nodes entry.target = none) (hb : w.nodes (removeBackup entry backupToken) = none) :
    Settled o (.remove entry operationId backupToken) w₀ (w.setJournal none) where
  journal := rfl
  staging p hp := absurd hp (by simp [SkillTransaction.staging])
  backup := hb
  atomic := by
    refine ⟨state, h.read, .inr ⟨ht, ?_⟩⟩
    have hafter : parseEmbeddedManagedState o.collation (removeEntry state entry) = _ := parse_removeEntry h.normal
    exact hl.read.trans (by simp [readManagedStateResult, SkillTransaction.apply, hafter])
  elsewhere p hpt _ hpb hpq := hl.elsewhere p hpt hpb hpq

/-- What a removal leaves with its target back is cut short or stranded. -/
theorem removeCrashed_of_restored (hl : RemoveLeft o w₀ entry operationId backupToken state φ state w)
    (hsome : (w₀.nodes entry.target).isSome = true) (ht : w.nodes entry.target = w₀.nodes entry.target)
    (hb : w.nodes (removeBackup entry backupToken) = none) :
    RemoveCrashed o w₀ entry operationId backupToken state w ∨ Stranded o w := by
  by_cases hp : φ = .prepared
  · exact .inl (.inr ⟨φ, state, hl, .untouched hp hsome ht hb rfl⟩)
  · refine .inr ⟨_, hl.journal, .inl ⟨hp, (congrArg Option.isSome ht).trans hsome, fun p hmem => ?_, .inl rfl⟩⟩
    obtain rfl : removeBackup entry backupToken = p := by simpa [removeJournal] using hmem
    exact hb

/-- A removal cut short with its target at the backup. -/
theorem removeCrashed_of_moved (hl : RemoveLeft o w₀ entry operationId backupToken state φ cur w)
    (hsome : (w₀.nodes entry.target).isSome = true) (ht : w.nodes entry.target = none)
    (hb : w.nodes (removeBackup entry backupToken) = w₀.nodes entry.target)
    (hcur : cur = state ∨ cur = removedState o.collation state entry) :
    RemoveCrashed o w₀ entry operationId backupToken state w ∨ Stranded o w := by
  have hmem : removeBackup entry backupToken ∈ (removeJournal operationId entry (removeBackup entry backupToken) state
      (removedState o.collation state entry) φ).backup := rfl
  obtain ⟨node, hold⟩ := Option.isSome_iff_exists.1 hsome
  cases node with
  | directory t =>
    rcases hcur with rfl | rfl
    · exact .inl (.inr ⟨φ, _, hl, .moved ht hb ⟨t, hb.trans hold⟩ rfl⟩)
    · exact .inl (.inr ⟨φ, _, hl, .removed ht (.inr ⟨t, hb.trans hold⟩) rfl⟩)
  | symlink => exact .inr ⟨_, hl.journal, .inr ⟨_, hmem, .inl (hb.trans hold)⟩⟩
  | file => exact .inr ⟨_, hl.journal, .inr ⟨_, hmem, .inr (hb.trans hold)⟩⟩

/-- A rollback of a removal, once its target stands again. -/
theorem recovers_keep (h : Removing o w₀ entry operationId backupToken state)
    (hl : RemoveLeft o w₀ entry operationId backupToken state φ state w) (hsome : (w₀.nodes entry.target).isSome = true)
    (ht : w.nodes entry.target = w₀.nodes entry.target) (hb : w.nodes (removeBackup entry backupToken) = none) :
    RemoveRecovers o w₀ entry operationId backupToken state (do
      let _ ← persistStateMonotonic o state
      clearManagedSkillsJournal) w := by
  have hl₁ := hl.setState h.normal
  have hset := settled_of_kept h hl₁ ht hb
  rw [RemoveRecovers, Program.meets_bind, meets_persist hl.read rfl (parse_of_normal h.normal)]
  exact ⟨removeCrashed_of_restored hl₁ hsome ht hb, .inl (.inl hset), rfl, hset⟩

/-- The recovery of a removal that was cut short settles it. -/
theorem recovers_removal (h : Removing o w₀ entry operationId backupToken state)
    (hl : RemoveLeft o w₀ entry operationId backupToken state φ cur w)
    (hn : RemoveNodes w₀ entry backupToken state (removedState o.collation state entry) φ cur w) :
    RemoveRecovers o w₀ entry operationId backupToken state (recoverInterruptedRemoval o
      (removeJournal operationId entry (removeBackup entry backupToken) state (removedState o.collation state entry) φ) cur) w := by
  cases hn with
  | untouched phase present target backup hstate =>
    obtain rfl := hstate
    have hsome : (w.nodes entry.target).isSome = true := by rw [target]; exact present
    have hb : ((some (removeBackup entry backupToken)).any fun p => (w.nodes p).isSome) = false := by simp [backup]
    rw [RemoveRecovers, meets_recoverRemoval_discarded phase hsome hb]
    exact recovers_keep h hl present target backup
  | moved target backup directory hstate =>
    obtain rfl := hstate
    obtain ⟨t, hdir⟩ := directory
    have hsome : (w₀.nodes entry.target).isSome = true := by rw [← backup, hdir]; rfl
    have hnone : (w.nodes entry.target).isSome = false := by rw [target]; rfl
    have htarget := (nodes_rename_target (removeBackup entry backupToken) entry.target w).trans backup
    have hbackup := nodes_rename_source h.backup_ne_target w
    rw [RemoveRecovers, meets_recoverRemoval_rolledBack hnone (stateEquivalent_removedState h.mem) rfl (by rw [hdir]; rfl),
      Program.meets_bind, Program.meets_write]
    exact ⟨removeCrashed_of_restored hl.restore hsome htarget hbackup, recovers_keep h hl.restore hsome htarget hbackup⟩
  | removed target backup hstate =>
    obtain rfl := hstate
    have hnone : (w.nodes entry.target).isSome = false := by rw [target]; rfl
    have htarget := (nodes_rm_of_ne h.backup_ne_target.symm w).trans target
    have hset := settled_of_removed h hl.rmBackup htarget (nodes_rm_self _ _)
    rw [RemoveRecovers, meets_recoverRemoval_completed (by exact hnone) (by exact stateEquivalent_self _ _)]
    exact ⟨.inl (.inr ⟨φ, _, hl.rmBackup, .removed htarget (.inl (nodes_rm_self _ _)) rfl⟩), .inl (.inl hset), rfl, hset⟩

/-- Recovery settles a removal that was cut short. -/
theorem recovers_removeCrashed (h : Removing o w₀ entry operationId backupToken state)
    (hc : RemoveCrashed o w₀ entry operationId backupToken state w) :
    RemoveRecovers o w₀ entry operationId backupToken state (recoverPendingJournal o) w := by
  rcases hc with hset | ⟨φ, cur, hl, hn⟩
  · exact recovers_settled hset
  · have hfence : (removedState o.collation state entry).resourceConfigVersion = cur.resourceConfigVersion := by
      cases hn with
      | untouched _ _ _ _ hstate => rw [hstate]; rfl
      | moved _ _ _ hstate => rw [hstate]; rfl
      | removed _ _ hstate => rw [hstate]
    have hdir : assertDirectoryIfPresent "temporary" (removeBackup entry backupToken) (w.nodes (removeBackup entry backupToken)) =
        .ok () := by
      cases hn with
      | untouched _ _ _ backup _ => rw [backup]; rfl
      | moved _ _ directory _ =>
        obtain ⟨t, hdir⟩ := directory
        rw [hdir]; rfl
      | removed _ backup _ =>
        rcases backup with hnone | ⟨t, hdir⟩
        · rw [hnone]; rfl
        · rw [hdir]; rfl
    refine (meets_recover hl.journal h.target (fun p hp => ?_) (fun p hp => ?_) hl.read hfence).2 (recovers_removal h hl hn)
    · exact absurd hp (by simp [removeJournal])
    · obtain rfl : removeBackup entry backupToken = p := by simpa [removeJournal] using hp
      exact ⟨assertTemporary_of_related h.relatedBackup h.target, resolve_backup h.relatedBackup h.target hdir⟩

/-- The steps of a removal once its journal is written. -/
theorem meets_removeSteps (h : Removing o w₀ entry operationId backupToken state)
    (hl : RemoveLeft o w₀ entry operationId backupToken state .prepared state w) (hsome : (w₀.nodes entry.target).isSome = true)
    (ht : w.nodes entry.target = w₀.nodes entry.target) (hb : w.nodes (removeBackup entry backupToken) = none) :
    (removeSteps o (removeJournal operationId entry (removeBackup entry backupToken) state (removeEntry state entry) .prepared)
      (removeBackup entry backupToken)).Meets
        (fun t => RemoveCrashed o w₀ entry operationId backupToken state t ∨ Stranded o t)
        (fun r t => r.isOk = true ∧ Settled o (.remove entry operationId backupToken) w₀ t) w := by
  have hparse : parseEmbeddedManagedState o.collation (removeEntry state entry) = some (removedState o.collation state entry) :=
    parse_removeEntry h.normal
  have hafter : Normal o.collation (removedState o.collation state entry) := normal_removedState h.normal
  have hfence : (removeEntry state entry).resourceConfigVersion = state.resourceConfigVersion := rfl
  have hl₁ := hl.moveAway
  have ht₁ := nodes_rename_source h.backup_ne_target.symm w
  have hb₁ := (nodes_rename_target entry.target (removeBackup entry backupToken) w).trans ht
  have hl₂ := hl₁.setJournal h hparse .target_backed_up
  have hl₃ := hl₂.setState hafter
  have hl₄ := hl₃.setJournal h (parse_of_normal hafter) .state_committed
  have hl₅ := hl₄.rmBackup
  have ht₅ := (nodes_rm_of_ne h.backup_ne_target.symm _).trans ht₁
  have hset := settled_of_removed h hl₅ ht₅ (nodes_rm_self _ _)
  unfold removeSteps
  rw [Program.meets_bind]
  refine (meets_renameNode (by rw [← hsome, ← ht]; rfl) hb).2 ⟨removeCrashed_of_moved hl₁ hsome ht₁ hb₁ (.inl rfl), ?_⟩
  rw [Program.meets_onOk_ok, Program.meets_bind, meets_writeJournalPhase]
  refine ⟨removeCrashed_of_moved hl₂ hsome ht₁ hb₁ (.inl rfl), ?_⟩
  rw [Program.meets_onOk_ok, Program.meets_bind]
  refine (meets_persist hl₂.read hfence hparse).2 ⟨removeCrashed_of_moved hl₃ hsome ht₁ hb₁ (.inr rfl), ?_⟩
  rw [Program.meets_onOk_ok, Program.meets_bind, meets_writeJournal]
  refine ⟨removeCrashed_of_moved hl₄ hsome ht₁ hb₁ (.inr rfl), ?_⟩
  rw [Program.meets_onOk_ok, Program.meets_bind, Program.meets_write]
  exact ⟨.inl (.inr ⟨_, _, hl₅, .removed ht₅ (.inl (nodes_rm_self _ _)) rfl⟩), .inl (.inl hset), rfl, hset⟩

/-- The workspace before the journal of a removal is written is settled. -/
theorem settled_of_quarantine (h : Removing o w₀ entry operationId backupToken state) :
    Settled o (.remove entry operationId backupToken) w₀ (w₀.rm (managedTargetQuarantinePath o entry.target)) where
  journal := h.journal
  staging p hp := absurd hp (by simp [SkillTransaction.staging])
  backup := (nodes_rm_of_ne h.quarantine_ne_backup.symm w₀).trans h.fresh
  atomic := ⟨state, h.read, .inl ⟨nodes_rm_of_ne h.quarantine_ne_target.symm w₀, h.read⟩⟩
  elsewhere _ _ _ _ hpq := nodes_rm_of_ne hpq w₀

/-- The removal of an entry whose target is gone. -/
theorem settled_of_absent (h : Removing o w₀ entry operationId backupToken state) (hnone : w₀.nodes entry.target = none) :
    Settled o (.remove entry operationId backupToken) w₀
      ((w₀.rm (managedTargetQuarantinePath o entry.target)).setState (.value (removedState o.collation state entry))) where
  journal := h.journal
  staging p hp := absurd hp (by simp [SkillTransaction.staging])
  backup := (nodes_rm_of_ne h.quarantine_ne_backup.symm w₀).trans h.fresh
  atomic := by
    have hafter : parseEmbeddedManagedState o.collation (removeEntry state entry) = _ := parse_removeEntry h.normal
    refine ⟨state, h.read, .inr ⟨(nodes_rm_of_ne h.quarantine_ne_target.symm w₀).trans hnone, ?_⟩⟩
    exact (read_of_normal (normal_removedState h.normal)).trans (by simp [readManagedStateResult, SkillTransaction.apply, hafter])
  elsewhere _ _ _ _ hpq := nodes_rm_of_ne hpq w₀

/-- A workspace in which nothing has been done for a transaction yet. -/
theorem settled_of_untouched (h : Removing o w₀ entry operationId backupToken state) :
    Settled o (.remove entry operationId backupToken) w₀ w₀ where
  journal := h.journal
  staging p hp := absurd hp (by simp [SkillTransaction.staging])
  backup := h.fresh
  atomic := ⟨state, h.read, .inl ⟨rfl, h.read⟩⟩
  elsewhere _ _ _ _ _ := rfl

/-- A removal that may begin settles its transaction, and what its steps leave meanwhile is cut short or stranded. -/
theorem meets_removeManagedEntry (h : Removing o w₀ entry operationId backupToken state) :
    (removeManagedEntry o state entry operationId backupToken).Meets
      (fun t => RemoveCrashed o w₀ entry operationId backupToken state t ∨ Stranded o t)
      (fun _ t => Settled o (.remove entry operationId backupToken) w₀ t) w₀ := by
  unfold removeManagedEntry removeManagedTargetQuarantine
  simp only [Program.meets_bind, Program.meets_check, Program.meets_onOk_ok, Program.meets_read, h.target]
  cases hq : assertDirectoryIfPresent "quarantine" (managedTargetQuarantinePath o entry.target)
      (w₀.nodes (managedTargetQuarantinePath o entry.target)) with
  | error e => exact settled_of_untouched h
  | ok u =>
    have hquarantine := settled_of_quarantine h
    have htarget := nodes_rm_of_ne h.quarantine_ne_target.symm w₀
    simp only [Program.meets_onOk_ok, Program.meets_write]
    refine ⟨.inl (.inl hquarantine), ?_⟩
    rw [Program.meets_bind, Program.meets_read, Program.meets_onOk_ok, htarget]
    by_cases hsome : (w₀.nodes entry.target).isSome = true
    · have hl : RemoveLeft o w₀ entry operationId backupToken state .prepared state
          ((w₀.rm (managedTargetQuarantinePath o entry.target)).setJournal (some (.value
            (removeJournal operationId entry (removeBackup entry backupToken) state (removeEntry state entry) .prepared)))) :=
        { journal := h.readJournal (parse_removeEntry h.normal) .prepared
          read := h.read
          elsewhere := fun p _ _ hpq => nodes_rm_of_ne hpq w₀ }
      have hb := (nodes_rm_of_ne h.quarantine_ne_backup.symm w₀).trans h.fresh
      have hsteps := meets_removeSteps h hl hsome htarget hb
      rw [if_neg (by simp [hsome])]
      simp only [Program.meets_bind, meets_writeJournal, Program.meets_onOk_ok, Program.meets_tryCatch]
      refine ⟨.inl (.inr ⟨.prepared, state, hl, .untouched rfl hsome htarget hb rfl⟩), hsteps.mono (fun _ ht => ht) fun r t hr => ?_⟩
      cases r with
      | ok a => exact hr.2
      | error e => exact absurd hr.1 (by simp [Except.isOk, Except.toBool])
    · have hset := settled_of_absent h (by simpa using hsome)
      have hfence : (removeEntry state entry).resourceConfigVersion = state.resourceConfigVersion := rfl
      rw [if_pos (by simpa using hsome)]
      have hread : readManagedStateResult o.collation (w₀.rm (managedTargetQuarantinePath o entry.target)).state = .current state :=
        h.read
      refine (meets_persist hread hfence (parse_removeEntry h.normal)).2 ?_
      exact ⟨.inl (.inl hset), hset⟩

/-- Where a removal is admitted. -/
theorem removing_of_admits (hadmits : admitsTransaction o (.remove entry operationId backupToken) w₀ = true) :
    ∃ state, Removing o w₀ entry operationId backupToken state := by
  unfold admitsTransaction at hadmits
  split at hadmits
  · rename_i state hread
    simp only [Bool.and_eq_true, Option.isNone_iff_eq_none, bne_iff_ne, SkillTransaction.entry, SkillTransaction.operationId,
      SkillTransaction.backupToken, List.contains_iff_mem] at hadmits
    obtain ⟨⟨⟨⟨⟨hjournal, hid⟩, htoken⟩, hfresh⟩, htarget⟩, hmem⟩ := hadmits
    have hok : assertManagedTarget o entry.target = .ok () := by
      cases hr : assertManagedTarget o entry.target with
      | ok u => rfl
      | error e =>
        rw [hr] at htarget
        exact absurd htarget (by simp [Except.isOk, Except.toBool])
    exact ⟨state, { journal := hjournal, read := hread, named := hid, token := htoken, mem := hmem, target := hok, fresh := hfresh }⟩
  · exact absurd hadmits (by simp)

end SkillRecoveryAux

end FirstTree
