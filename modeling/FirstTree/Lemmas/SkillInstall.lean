import FirstTree.Lemmas.ManagedSkills

/-!
# Installs that are cut short

When a transaction of the managed Skills is settled and when it is stranded, and the workspaces an install leaves when it is cut
short: every step of the install and of its recovery leaves one of them or strands it, and recovery settles each.
-/

namespace FirstTree

open Durable Runs ManagedStateAux

variable {τ : Type}

/-- A workspace in which a transaction is settled: its journal, staging and backup are gone, the target and the state are both as
before it or both as after it, and what stands elsewhere is as before it. -/
structure Settled (o : ManagedSkillsOptions τ) (tx : SkillTransaction) (w₀ w : Workspace τ) : Prop where
  journal : w.journal = none
  staging : ∀ p ∈ tx.staging, w.nodes p = none
  backup : w.nodes tx.backup = none
  atomic : ∃ state, readManagedStateResult o.collation w₀.state = .current state ∧
    (w.nodes tx.entry.target = w₀.nodes tx.entry.target ∧ readManagedStateResult o.collation w.state = .current state ∨
      w.nodes tx.entry.target = tx.staging.bind w₀.nodes ∧
        readManagedStateResult o.collation w.state = readManagedStateResult o.collation (some (.value (tx.apply state))))
  elsewhere : ∀ p, p ≠ tx.entry.target → p ∉ tx.staging → p ≠ tx.backup → p ≠ managedTargetQuarantinePath o tx.entry.target →
    w.nodes p = w₀.nodes p

/-- A workspace whose journal no recovery can settle. The target is not what the journal expects to be installed, its backup is gone,
and the journal says that it was backed up; or no directory stands at the backup. -/
def Stranded (o : ManagedSkillsOptions τ) (w : Workspace τ) : Prop :=
  ∃ journal, readManagedSkillsJournal o.collation w.journal = .current journal ∧
    (journal.phase ≠ .prepared ∧ (w.nodes journal.target).isSome ∧ (∀ p ∈ journal.backup, w.nodes p = none) ∧
        (journal.operation = .remove ∨ digestManagedTarget o w journal.target ≠ .ok journal.expectedInstalledDigest) ∨
      ∃ p ∈ journal.backup, w.nodes p = some .symlink ∨ w.nodes p = some .file)

namespace SkillRecoveryAux

open ManagedSkillsAux

variable {o : ManagedSkillsOptions τ} {w₀ w : Workspace τ} {staged : StagedManagedSkill} {entry : ManagedSkillEntry}
  {operationId backupToken : String} {state cur : ManagedState} {tree : τ} {φ : JournalPhase}

/-! ## Installs -/

/-- An install that may begin. -/
structure Installing (o : ManagedSkillsOptions τ) (w₀ : Workspace τ) (staged : StagedManagedSkill) (operationId backupToken : String)
    (state : ManagedState) (tree : τ) : Prop where
  journal : w₀.journal = none
  read : readManagedStateResult o.collation w₀.state = .current state
  named : operationId ≠ ""
  token : isToken backupToken.toList = true
  accepts : Accepts state staged.entry
  target : assertManagedTarget o staged.entry.target = .ok ()
  related : isRelatedJournalTemporaryTarget staged.entry.target staged.staging ".staging" = true
  content : w₀.nodes staged.staging = some (.directory tree)
  digest : o.digest.digestDirectory tree = .ok staged.entry.installedDigest
  fresh : w₀.nodes (SkillTransaction.install staged operationId backupToken).backup = none
  digestible : ∃ d, digestManagedTarget o w₀ staged.entry.target = .ok d

/-- The path of the backup of an install. -/
def installBackup (staged : StagedManagedSkill) (backupToken : String) : WorkspacePath :=
  temporaryPath staged.entry.target backupToken ".backup"

/-- The backup the journal of an install names: one when something is to be replaced. -/
def journalBackup (w₀ : Workspace τ) (staged : StagedManagedSkill) (backupToken : String) : Option WorkspacePath :=
  if (w₀.nodes staged.entry.target).isSome then some (installBackup staged backupToken) else none

namespace Installing

variable (h : Installing o w₀ staged operationId backupToken state tree)
include h

theorem normal : Normal o.collation state := normal_of_read h.read

theorem relatedStaging : Related staged.entry.target staged.staging ".staging" := related_iff_some h.related

theorem relatedBackup_eq : isRelatedJournalTemporaryTarget staged.entry.target (installBackup staged backupToken) ".backup" = true :=
  related_temporaryPath (name_of_safeTarget (safeTarget_of_entry h.accepts.valid)) h.token

theorem relatedBackup : Related staged.entry.target (installBackup staged backupToken) ".backup" :=
  related_iff_some h.relatedBackup_eq

theorem backup_ne_target : installBackup staged backupToken ≠ staged.entry.target := h.relatedBackup.ne_target

theorem staging_ne_target : staged.staging ≠ staged.entry.target := h.relatedStaging.ne_target

theorem staging_ne_backup : staged.staging ≠ installBackup staged backupToken := h.relatedStaging.staging_ne_backup h.relatedBackup

/-- The journal is read back, at every phase and with the state after the install in both forms. -/
theorem readJournal {after : ManagedState}
    (hafter : parseEmbeddedManagedState o.collation after = some (installedState o.collation state staged.entry)) (φ : JournalPhase) :
    readManagedSkillsJournal o.collation (some (.value
        (installJournal operationId staged (journalBackup w₀ staged backupToken) state after φ))) =
      .current (installJournal operationId staged (journalBackup w₀ staged backupToken) state
        (installedState o.collation state staged.entry) φ) := by
  refine read_installJournal h.normal h.accepts h.named h.related (fun b hb => ?_) hafter φ
  unfold journalBackup at hb
  split at hb
  · obtain rfl : installBackup staged backupToken = b := by simpa using hb
    exact h.relatedBackup_eq
  · exact absurd hb (by simp)

end Installing

/-- What is common to the workspaces an install leaves: its journal at a phase, a state, its staging, and the rest of the files. -/
structure InstallLeft (o : ManagedSkillsOptions τ) (w₀ : Workspace τ) (staged : StagedManagedSkill) (operationId backupToken : String)
    (state : ManagedState) (tree : τ) (φ : JournalPhase) (cur : ManagedState) (w : Workspace τ) : Prop where
  journal : readManagedSkillsJournal o.collation w.journal =
    .current (installJournal operationId staged (journalBackup w₀ staged backupToken) state
      (installedState o.collation state staged.entry) φ)
  read : readManagedStateResult o.collation w.state = .current cur
  staging : w.nodes staged.staging = none ∨ w.nodes staged.staging = some (.directory tree)
  elsewhere : ∀ p, p ≠ staged.entry.target → p ≠ staged.staging → p ≠ installBackup staged backupToken → w.nodes p = w₀.nodes p

/-- What stands at the target and at the backup of an install that was cut short: the new target, with or without the backup of
the old one; the old target with the journal still prepared; or no target and its backup. -/
inductive InstallNodes (w₀ : Workspace τ) (staged : StagedManagedSkill) (backupToken : String) (state after : ManagedState) (tree : τ)
    (φ : JournalPhase) (cur : ManagedState) (w : Workspace τ) : Prop where
  | installed (target : w.nodes staged.entry.target = some (.directory tree))
      (backup : w.nodes (installBackup staged backupToken) = none ∨
        (w₀.nodes staged.entry.target).isSome ∧ ∃ t, w.nodes (installBackup staged backupToken) = some (.directory t))
      (state : cur = state ∨ cur = after)
  | untouched (phase : φ = .prepared) (target : w.nodes staged.entry.target = w₀.nodes staged.entry.target)
      (backup : w.nodes (installBackup staged backupToken) = none) (state : cur = state)
  | moved (target : w.nodes staged.entry.target = none)
      (backup : w.nodes (installBackup staged backupToken) = w₀.nodes staged.entry.target)
      (directory : ∃ t, w.nodes (installBackup staged backupToken) = some (.directory t)) (state : cur = state)

/-- A workspace that an install leaves when it is cut short. -/
def InstallCrashed (o : ManagedSkillsOptions τ) (w₀ : Workspace τ) (staged : StagedManagedSkill) (operationId backupToken : String)
    (state : ManagedState) (tree : τ) (w : Workspace τ) : Prop :=
  Settled o (.install staged operationId backupToken) w₀ w ∨
    ∃ φ cur, InstallLeft o w₀ staged operationId backupToken state tree φ cur w ∧
      InstallNodes w₀ staged backupToken state (installedState o.collation state staged.entry) tree φ cur w

namespace InstallLeft

variable {φ : JournalPhase} {cur : ManagedState}

/-- The state file is replaced by another state of the transaction. -/
theorem setState {next : ManagedState} (hl : InstallLeft o w₀ staged operationId backupToken state tree φ cur w)
    (hn : Normal o.collation next) : InstallLeft o w₀ staged operationId backupToken state tree φ next (w.setState (.value next)) :=
  { journal := hl.journal, read := read_of_normal hn, staging := hl.staging, elsewhere := hl.elsewhere }

/-- The staging is removed. -/
theorem rmStaging (hl : InstallLeft o w₀ staged operationId backupToken state tree φ cur w) :
    InstallLeft o w₀ staged operationId backupToken state tree φ cur (w.rm staged.staging) :=
  { journal := hl.journal
    read := hl.read
    staging := .inl (nodes_rm_self _ _)
    elsewhere := fun p ht hs hb => (nodes_rm_of_ne hs w).trans (hl.elsewhere p ht hs hb) }

/-- The backup is removed. -/
theorem rmBackup (h : Installing o w₀ staged operationId backupToken state tree)
    (hl : InstallLeft o w₀ staged operationId backupToken state tree φ cur w) :
    InstallLeft o w₀ staged operationId backupToken state tree φ cur (w.rm (installBackup staged backupToken)) :=
  { journal := hl.journal
    read := hl.read
    staging := by rw [nodes_rm_of_ne h.staging_ne_backup]; exact hl.staging
    elsewhere := fun p ht hs hb => (nodes_rm_of_ne hb w).trans (hl.elsewhere p ht hs hb) }

/-- The backup takes the place of the target. -/
theorem restore (h : Installing o w₀ staged operationId backupToken state tree)
    (hl : InstallLeft o w₀ staged operationId backupToken state tree φ cur w) :
    InstallLeft o w₀ staged operationId backupToken state tree φ cur
      (w.rename (installBackup staged backupToken) staged.entry.target) :=
  { journal := hl.journal
    read := hl.read
    staging := by rw [nodes_rename_of_ne h.staging_ne_backup h.staging_ne_target]; exact hl.staging
    elsewhere := fun p ht hs hb => (nodes_rename_of_ne hb ht w).trans (hl.elsewhere p ht hs hb) }

end InstallLeft

/-- The journal of an install names a backup exactly when it replaces something. -/
theorem mem_journalBackup {p : WorkspacePath} :
    p ∈ journalBackup w₀ staged backupToken ↔ (w₀.nodes staged.entry.target).isSome ∧ p = installBackup staged backupToken := by
  unfold journalBackup
  split
  · rename_i hsome
    simp [hsome, eq_comm]
  · rename_i hnone
    simp [hnone]

/-- A target with the digest of a tree is a directory with that tree. -/
theorem directory_of_digest {target : WorkspacePath} {digest : String} (h : digestManagedTarget o w target = .ok (some digest))
    (hd : o.digest.digestDirectory tree = .ok digest) : w.nodes target = some (.directory tree) := by
  unfold digestManagedTarget at h
  split at h
  · rename_i t hnode
    split at h
    · rename_i digest' hold
      have heq : digest' = digest := by simpa using h
      rw [hnode, o.digest.injective t tree digest (heq ▸ hold) hd]
    · exact absurd h (by simp)
  · exact absurd h (by simp)

/-- What an install leaves with the target as it was is cut short or stranded. -/
theorem installCrashed_of_restored (hl : InstallLeft o w₀ staged operationId backupToken state tree φ state w)
    (hd : o.digest.digestDirectory tree = .ok staged.entry.installedDigest)
    (ht : w.nodes staged.entry.target = w₀.nodes staged.entry.target)
    (hb : w.nodes (installBackup staged backupToken) = none) (hφ : φ = .prepared ∨ (w₀.nodes staged.entry.target).isSome) :
    InstallCrashed o w₀ staged operationId backupToken state tree w ∨ Stranded o w := by
  by_cases hp : φ = .prepared
  · exact .inl (.inr ⟨φ, state, hl, .untouched hp ht hb rfl⟩)
  · by_cases hdigest : digestManagedTarget o w staged.entry.target = .ok (some staged.entry.installedDigest)
    · -- the old target has the digest of the new one, so it is the new one
      have htree := directory_of_digest hdigest hd
      exact .inl (.inr ⟨φ, state, hl, .installed htree (.inl hb) (.inl rfl)⟩)
    · refine .inr ⟨_, hl.journal, .inl ⟨hp, ?_, fun p hmem => ?_, .inr hdigest⟩⟩
      · exact (congrArg Option.isSome ht).trans (hφ.resolve_left hp)
      · rw [(mem_journalBackup.1 hmem).2]
        exact hb

/-- An install whose new target stands, without its staging and backup, is settled when its journal is removed. -/
theorem settled_of_installed (h : Installing o w₀ staged operationId backupToken state tree)
    (hl : InstallLeft o w₀ staged operationId backupToken state tree φ (installedState o.collation state staged.entry) w)
    (ht : w.nodes staged.entry.target = some (.directory tree)) (hs : w.nodes staged.staging = none)
    (hb : w.nodes (installBackup staged backupToken) = none) :
    Settled o (.install staged operationId backupToken) w₀ (w.setJournal none) where
  journal := rfl
  staging p hp := by
    obtain rfl : staged.staging = p := by simpa [SkillTransaction.staging] using hp
    exact hs
  backup := hb
  atomic := by
    refine ⟨state, h.read, .inr ⟨ht.trans h.content.symm, ?_⟩⟩
    have hafter : parseEmbeddedManagedState o.collation (replaceEntry state staged.entry) = _ := parse_replaceEntry h.normal h.accepts
    exact hl.read.trans (by simp [readManagedStateResult, SkillTransaction.apply, hafter])
  elsewhere p hpt hps hpb _ := hl.elsewhere p hpt (fun heq => hps (by simp [SkillTransaction.staging, heq])) hpb

/-- An install whose old target stands, without its staging and backup, is settled when its journal is removed. -/
theorem settled_of_restored (h : Installing o w₀ staged operationId backupToken state tree)
    (hl : InstallLeft o w₀ staged operationId backupToken state tree φ state w)
    (ht : w.nodes staged.entry.target = w₀.nodes staged.entry.target) (hs : w.nodes staged.staging = none)
    (hb : w.nodes (installBackup staged backupToken) = none) :
    Settled o (.install staged operationId backupToken) w₀ (w.setJournal none) where
  journal := rfl
  staging p hp := by
    obtain rfl : staged.staging = p := by simpa [SkillTransaction.staging] using hp
    exact hs
  backup := hb
  atomic := ⟨state, h.read, .inl ⟨ht, hl.read⟩⟩
  elsewhere p hpt hps hpb _ := hl.elsewhere p hpt (fun heq => hps (by simp [SkillTransaction.staging, heq])) hpb

/-- The conditions of the recovery of an install: what its steps may leave, and what its end is. -/
abbrev InstallRecovers (o : ManagedSkillsOptions τ) (w₀ : Workspace τ) (staged : StagedManagedSkill)
    (operationId backupToken : String) (state : ManagedState) (tree : τ) (p : WorkspaceProgram τ Unit) (w : Workspace τ) : Prop :=
  p.Meets (fun t => InstallCrashed o w₀ staged operationId backupToken state tree t ∨ Stranded o t)
    (fun r t => r = .ok () ∧ Settled o (.install staged operationId backupToken) w₀ t) w

/-- The cleanup of a committed install: the staging, the backup and the journal are removed. -/
theorem recovers_cleanup (h : Installing o w₀ staged operationId backupToken state tree)
    (hl : InstallLeft o w₀ staged operationId backupToken state tree φ (installedState o.collation state staged.entry) w)
    (ht : w.nodes staged.entry.target = some (.directory tree))
    (hb : w.nodes (installBackup staged backupToken) = none ∨
      (w₀.nodes staged.entry.target).isSome ∧ ∃ t, w.nodes (installBackup staged backupToken) = some (.directory t)) :
    InstallRecovers o w₀ staged operationId backupToken state tree (do
      rmOptional (some staged.staging)
      rmOptional (journalBackup w₀ staged backupToken)
      clearManagedSkillsJournal) w := by
  have hl₁ := hl.rmStaging
  have ht₁ := (nodes_rm_of_ne h.staging_ne_target.symm w).trans ht
  have hb₁ := nodes_rm_of_ne h.staging_ne_backup.symm w
  simp only [InstallRecovers, Program.meets_bind, meets_rmOptional_some, Program.meets_onOk_ok]
  refine ⟨.inl (.inr ⟨φ, _, hl₁, .installed ht₁ (by rw [hb₁]; exact hb) (.inr rfl)⟩), ?_⟩
  by_cases hsome : (w₀.nodes staged.entry.target).isSome = true
  · have hl₂ := hl₁.rmBackup h
    have ht₂ := (nodes_rm_of_ne h.backup_ne_target.symm (w.rm staged.staging)).trans ht₁
    have hs₂ := (nodes_rm_of_ne h.staging_ne_backup (w.rm staged.staging)).trans (nodes_rm_self _ _)
    rw [journalBackup, if_pos hsome, meets_rmOptional_some]
    refine ⟨.inl (.inr ⟨φ, _, hl₂, .installed ht₂ (.inl (nodes_rm_self _ _)) (.inr rfl)⟩), ?_⟩
    have hset := settled_of_installed h hl₂ ht₂ hs₂ (nodes_rm_self _ _)
    exact ⟨.inl (.inl hset), rfl, hset⟩
  · rw [journalBackup, if_neg hsome, meets_rmOptional_none]
    have hset := settled_of_installed h hl₁ ht₁ (nodes_rm_self _ _) (hb₁.trans (hb.resolve_right fun hr => hsome hr.1))
    exact ⟨.inl (.inl hset), rfl, hset⟩

/-- A commit by the recovery: the state after the install is persisted, then the rest is cleaned up. -/
theorem recovers_commit (h : Installing o w₀ staged operationId backupToken state tree)
    (hl : InstallLeft o w₀ staged operationId backupToken state tree φ cur w)
    (ht : w.nodes staged.entry.target = some (.directory tree))
    (hb : w.nodes (installBackup staged backupToken) = none ∨
      (w₀.nodes staged.entry.target).isSome ∧ ∃ t, w.nodes (installBackup staged backupToken) = some (.directory t))
    (hcur : cur = state ∨ cur = installedState o.collation state staged.entry) :
    InstallRecovers o w₀ staged operationId backupToken state tree (do
      let _ ← persistStateMonotonic o (installedState o.collation state staged.entry)
      rmOptional (some staged.staging)
      rmOptional (journalBackup w₀ staged backupToken)
      clearManagedSkillsJournal) w := by
  have hafter := normal_installedState h.normal h.accepts
  have hfence : (installedState o.collation state staged.entry).resourceConfigVersion = cur.resourceConfigVersion := by
    rcases hcur with rfl | rfl <;> rfl
  have hl₁ := hl.setState hafter
  rw [InstallRecovers, Program.meets_bind, meets_persist hl.read hfence (parse_of_normal hafter)]
  exact ⟨.inl (.inr ⟨φ, _, hl₁, .installed ht hb (.inr rfl)⟩), recovers_cleanup h hl₁ ht hb⟩

/-- A rollback by the recovery, once the old target stands again: the state before the install is persisted, and the staging and the
journal are removed. -/
theorem recovers_rollback (h : Installing o w₀ staged operationId backupToken state tree)
    (hl : InstallLeft o w₀ staged operationId backupToken state tree φ state w)
    (ht : w.nodes staged.entry.target = w₀.nodes staged.entry.target)
    (hb : w.nodes (installBackup staged backupToken) = none) (hφ : φ = .prepared ∨ (w₀.nodes staged.entry.target).isSome) :
    InstallRecovers o w₀ staged operationId backupToken state tree (do
      let _ ← persistStateMonotonic o state
      rmOptional (some staged.staging)
      clearManagedSkillsJournal) w := by
  have hl₁ := hl.setState h.normal
  have hl₂ := hl₁.rmStaging
  have ht₂ := (nodes_rm_of_ne h.staging_ne_target.symm (w.setState (.value state))).trans ht
  have hb₂ := (nodes_rm_of_ne h.staging_ne_backup.symm (w.setState (.value state))).trans hb
  rw [InstallRecovers, Program.meets_bind, meets_persist hl.read rfl (parse_of_normal h.normal)]
  refine ⟨installCrashed_of_restored hl₁ h.digest ht hb hφ, ?_⟩
  simp only [Program.meets_onOk_ok, Program.meets_bind, meets_rmOptional_some]
  refine ⟨installCrashed_of_restored hl₂ h.digest ht₂ hb₂ hφ, ?_⟩
  have hset := settled_of_restored h hl₂ ht₂ (nodes_rm_self _ _) hb₂
  exact ⟨.inl (.inl hset), rfl, hset⟩

/-- The digest of the new tree. -/
theorem digest_of_installed (h : Installing o w₀ staged operationId backupToken state tree)
    (ht : w.nodes staged.entry.target = some (.directory tree)) :
    digestManagedTarget o w staged.entry.target = .ok (some staged.entry.installedDigest) := by
  simp [digestManagedTarget, ht, h.digest]

/-- The recovery of an install that was cut short settles it. -/
theorem recovers_install (h : Installing o w₀ staged operationId backupToken state tree)
    (hl : InstallLeft o w₀ staged operationId backupToken state tree φ cur w)
    (hn : InstallNodes w₀ staged backupToken state (installedState o.collation state staged.entry) tree φ cur w) :
    InstallRecovers o w₀ staged operationId backupToken state tree (recoverInterruptedInstall o
      (installJournal operationId staged (journalBackup w₀ staged backupToken) state
        (installedState o.collation state staged.entry) φ)) w := by
  cases hn with
  | installed target backup hstate =>
    rw [InstallRecovers, meets_recoverInstall_completed (digest_of_installed h target)]
    exact recovers_commit h hl target backup hstate
  | untouched phase target backup hstate =>
    obtain rfl := hstate
    obtain ⟨d, hd⟩ := h.digestible
    have hd' : digestManagedTarget o w staged.entry.target = .ok d := by
      unfold digestManagedTarget at hd ⊢
      rw [target]
      exact hd
    have hb : ((journalBackup w₀ staged backupToken).any fun p => (w.nodes p).isSome) = false := by
      unfold journalBackup
      split <;> simp [backup]
    by_cases heq : d = some staged.entry.installedDigest
    · -- the old target has the digest of the new one, so it is the new one
      rw [InstallRecovers, meets_recoverInstall_completed (hd'.trans (congrArg _ heq))]
      exact recovers_commit h hl (directory_of_digest (heq ▸ hd') h.digest) (.inl backup) (.inl rfl)
    · by_cases hsome : (w.nodes staged.entry.target).isSome = true
      · rw [InstallRecovers, meets_recoverInstall_discarded hd' heq phase hsome hb]
        exact recovers_rollback h hl target backup (.inl phase)
      · have hnone : (w.nodes staged.entry.target).isSome = false := by simpa using hsome
        rw [InstallRecovers, meets_recoverInstall_uncommitted hd' heq hnone hb]
        exact recovers_rollback h hl target backup (.inl phase)
  | moved target backup directory hstate =>
    obtain rfl := hstate
    obtain ⟨t, ht⟩ := directory
    have hsome : (w₀.nodes staged.entry.target).isSome = true := by rw [← backup, ht]; rfl
    have hd : digestManagedTarget o w staged.entry.target = .ok none := by simp [digestManagedTarget, target]
    have hnone : (w.nodes staged.entry.target).isSome = false := by rw [target]; rfl
    have htarget := (nodes_rename_target (installBackup staged backupToken) staged.entry.target w).trans backup
    have hbackup := nodes_rename_source h.backup_ne_target w
    rw [InstallRecovers, meets_recoverInstall_rolledBack hd (by simp [installJournal]) hnone
      (show journalBackup w₀ staged backupToken = some (installBackup staged backupToken) from if_pos hsome) (by rw [ht]; rfl)]
    rw [Program.meets_bind, Program.meets_write]
    exact ⟨installCrashed_of_restored (hl.restore h) h.digest htarget hbackup (.inr hsome),
      recovers_rollback h (hl.restore h) htarget hbackup (.inr hsome)⟩

/-- The journal is written at another phase, with the state after the install in either form. -/
theorem InstallLeft.setJournal (h : Installing o w₀ staged operationId backupToken state tree)
    (hl : InstallLeft o w₀ staged operationId backupToken state tree φ cur w) {after : ManagedState}
    (hafter : parseEmbeddedManagedState o.collation after = some (installedState o.collation state staged.entry))
    (next : JournalPhase) :
    InstallLeft o w₀ staged operationId backupToken state tree next cur (w.setJournal (some (.value
      (installJournal operationId staged (journalBackup w₀ staged backupToken) state after next)))) :=
  { journal := h.readJournal hafter next, read := hl.read, staging := hl.staging, elsewhere := hl.elsewhere }

/-- The staged tree takes the place of the target. -/
theorem InstallLeft.place (h : Installing o w₀ staged operationId backupToken state tree)
    (hl : InstallLeft o w₀ staged operationId backupToken state tree φ cur w) :
    InstallLeft o w₀ staged operationId backupToken state tree φ cur (w.rename staged.staging staged.entry.target) :=
  { journal := hl.journal
    read := hl.read
    staging := .inl (nodes_rename_source h.staging_ne_target w)
    elsewhere := fun p ht hs hb => (nodes_rename_of_ne hs ht w).trans (hl.elsewhere p ht hs hb) }

/-- The target is moved to the backup. -/
theorem InstallLeft.moveAway (h : Installing o w₀ staged operationId backupToken state tree)
    (hl : InstallLeft o w₀ staged operationId backupToken state tree φ cur w) :
    InstallLeft o w₀ staged operationId backupToken state tree φ cur
      (w.rename staged.entry.target (installBackup staged backupToken)) :=
  { journal := hl.journal
    read := hl.read
    staging := by rw [nodes_rename_of_ne h.staging_ne_target h.staging_ne_backup]; exact hl.staging
    elsewhere := fun p ht hs hb => (nodes_rename_of_ne ht hb w).trans (hl.elsewhere p ht hs hb) }

/-- A backup that is no directory strands the install. -/
theorem stranded_of_backup (hl : InstallLeft o w₀ staged operationId backupToken state tree φ cur w)
    (hsome : (w₀.nodes staged.entry.target).isSome = true)
    (hb : w.nodes (installBackup staged backupToken) = some .symlink ∨ w.nodes (installBackup staged backupToken) = some .file) :
    Stranded o w :=
  ⟨_, hl.journal, .inr ⟨_, mem_journalBackup.2 ⟨hsome, rfl⟩, hb⟩⟩

/-- An install cut short with the new target in place and the old one at the backup. -/
theorem crashed_of_new (hl : InstallLeft o w₀ staged operationId backupToken state tree φ cur w)
    (ht : w.nodes staged.entry.target = some (.directory tree))
    (hb : w.nodes (installBackup staged backupToken) = w₀.nodes staged.entry.target)
    (hcur : cur = state ∨ cur = installedState o.collation state staged.entry) :
    InstallCrashed o w₀ staged operationId backupToken state tree w ∨ Stranded o w := by
  cases hold : w₀.nodes staged.entry.target with
  | none => exact .inl (.inr ⟨φ, cur, hl, .installed ht (.inl (hb.trans hold)) hcur⟩)
  | some node =>
    have hsome : (w₀.nodes staged.entry.target).isSome = true := by rw [hold]; rfl
    cases node with
    | directory t => exact .inl (.inr ⟨φ, cur, hl, .installed ht (.inr ⟨hsome, t, hb.trans hold⟩) hcur⟩)
    | symlink => exact .inr (stranded_of_backup hl hsome (.inl (hb.trans hold)))
    | file => exact .inr (stranded_of_backup hl hsome (.inr (hb.trans hold)))

/-- An install cut short with the old target at the backup and nothing in its place. -/
theorem crashed_of_moved (hl : InstallLeft o w₀ staged operationId backupToken state tree φ state w)
    (hsome : (w₀.nodes staged.entry.target).isSome = true) (ht : w.nodes staged.entry.target = none)
    (hb : w.nodes (installBackup staged backupToken) = w₀.nodes staged.entry.target) :
    InstallCrashed o w₀ staged operationId backupToken state tree w ∨ Stranded o w := by
  obtain ⟨node, hold⟩ := Option.isSome_iff_exists.1 hsome
  cases node with
  | directory t => exact .inl (.inr ⟨φ, state, hl, .moved ht hb ⟨t, hb.trans hold⟩ rfl⟩)
  | symlink => exact .inr (stranded_of_backup hl hsome (.inl (hb.trans hold)))
  | file => exact .inr (stranded_of_backup hl hsome (.inr (hb.trans hold)))

/-- The end of a committed install: the backup and the journal are removed. -/
theorem meets_finish (h : Installing o w₀ staged operationId backupToken state tree)
    (hl : InstallLeft o w₀ staged operationId backupToken state tree φ (installedState o.collation state staged.entry) w)
    (ht : w.nodes staged.entry.target = some (.directory tree)) (hs : w.nodes staged.staging = none)
    (hb : w.nodes (installBackup staged backupToken) = w₀.nodes staged.entry.target) (persisted : ManagedState) :
    (do
      rmOptional (journalBackup w₀ staged backupToken)
      clearManagedSkillsJournal
      return persisted : WorkspaceProgram τ ManagedState).Meets
        (fun t => InstallCrashed o w₀ staged operationId backupToken state tree t ∨ Stranded o t)
        (fun r t => r.isOk = true ∧ Settled o (.install staged operationId backupToken) w₀ t) w := by
  by_cases hsome : (w₀.nodes staged.entry.target).isSome = true
  · have hl₁ := hl.rmBackup h
    have ht₁ := (nodes_rm_of_ne h.backup_ne_target.symm w).trans ht
    have hs₁ := (nodes_rm_of_ne h.staging_ne_backup w).trans hs
    have hset := settled_of_installed h hl₁ ht₁ hs₁ (nodes_rm_self _ _)
    rw [journalBackup, if_pos hsome, Program.meets_bind, meets_rmOptional_some]
    exact ⟨.inl (.inr ⟨φ, _, hl₁, .installed ht₁ (.inl (nodes_rm_self _ _)) (.inr rfl)⟩), .inl (.inl hset), rfl, hset⟩
  · have hset := settled_of_installed h hl ht hs (hb.trans (by simpa using hsome))
    rw [journalBackup, if_neg hsome, Program.meets_bind, meets_rmOptional_none]
    exact ⟨.inl (.inl hset), rfl, hset⟩

/-- The steps of an install once its target is out of the way. -/
theorem meets_place (h : Installing o w₀ staged operationId backupToken state tree)
    (hl : InstallLeft o w₀ staged operationId backupToken state tree φ state w)
    (hs : w.nodes staged.staging = some (.directory tree)) (ht : w.nodes staged.entry.target = none)
    (hb : w.nodes (installBackup staged backupToken) = w₀.nodes staged.entry.target) :
    (do
      renameNode staged.staging staged.entry.target
      let journal ← writeJournalPhase (installJournal operationId staged (journalBackup w₀ staged backupToken) state
        (replaceEntry state staged.entry) φ) .target_installed
      let persisted ← persistStateMonotonic o journal.afterState
      writeManagedSkillsJournal { journal with afterState := persisted, phase := .state_committed }
      rmOptional (journalBackup w₀ staged backupToken)
      clearManagedSkillsJournal
      return persisted : WorkspaceProgram τ ManagedState).Meets
        (fun t => InstallCrashed o w₀ staged operationId backupToken state tree t ∨ Stranded o t)
        (fun r t => r.isOk = true ∧ Settled o (.install staged operationId backupToken) w₀ t) w := by
  have hparse := parse_replaceEntry h.normal h.accepts
  have hafter := normal_installedState h.normal h.accepts
  have hfence : (replaceEntry state staged.entry).resourceConfigVersion = state.resourceConfigVersion := rfl
  have hl₁ := hl.place h
  have ht₁ := (nodes_rename_target staged.staging staged.entry.target w).trans hs
  have hs₁ := nodes_rename_source h.staging_ne_target w
  have hb₁ := (nodes_rename_of_ne h.staging_ne_backup.symm h.backup_ne_target w).trans hb
  have hl₂ := hl₁.setJournal h hparse .target_installed
  have hl₃ := hl₂.setState hafter
  have hl₄ := hl₃.setJournal h (parse_of_normal hafter) .state_committed
  rw [Program.meets_bind, meets_renameNode (by rw [hs]; rfl) ht]
  refine ⟨crashed_of_new hl₁ ht₁ hb₁ (.inl rfl), ?_⟩
  rw [Program.meets_onOk_ok, Program.meets_bind, meets_writeJournalPhase]
  refine ⟨crashed_of_new hl₂ ht₁ hb₁ (.inl rfl), ?_⟩
  rw [Program.meets_onOk_ok, Program.meets_bind]
  refine (meets_persist hl₂.read hfence hparse).2 ⟨crashed_of_new hl₃ ht₁ hb₁ (.inr rfl), ?_⟩
  rw [Program.meets_onOk_ok, Program.meets_bind, meets_writeJournal]
  exact ⟨crashed_of_new hl₄ ht₁ hb₁ (.inr rfl), meets_finish h hl₄ ht₁ hs₁ hb₁ _⟩

/-- The steps of an install once its journal is written. -/
theorem meets_installSteps (h : Installing o w₀ staged operationId backupToken state tree)
    (hl : InstallLeft o w₀ staged operationId backupToken state tree .prepared state w)
    (hs : w.nodes staged.staging = some (.directory tree)) (ht : w.nodes staged.entry.target = w₀.nodes staged.entry.target)
    (hb : w.nodes (installBackup staged backupToken) = none) :
    (installSteps o (installJournal operationId staged (journalBackup w₀ staged backupToken) state
      (replaceEntry state staged.entry) .prepared) staged.staging (journalBackup w₀ staged backupToken)).Meets
        (fun t => InstallCrashed o w₀ staged operationId backupToken state tree t ∨ Stranded o t)
        (fun r t => r.isOk = true ∧ Settled o (.install staged operationId backupToken) w₀ t) w := by
  unfold installSteps
  by_cases hsome : (w₀.nodes staged.entry.target).isSome = true
  · have hj : journalBackup w₀ staged backupToken = some (installBackup staged backupToken) := if_pos hsome
    have hl₁ := hl.moveAway h
    have ht₁ := nodes_rename_source h.backup_ne_target.symm w
    have hb₁ := (nodes_rename_target staged.entry.target (installBackup staged backupToken) w).trans ht
    have hs₁ := (nodes_rename_of_ne h.staging_ne_target h.staging_ne_backup w).trans hs
    have hl₂ := hl₁.setJournal h (parse_replaceEntry h.normal h.accepts) .target_backed_up
    have hplace := meets_place h hl₂ hs₁ ht₁ hb₁
    rw [hj] at hl₂ hplace ⊢
    rw [Program.meets_bind, meets_renameNode (by rw [← hsome, ← ht]; rfl) hb]
    refine ⟨crashed_of_moved hl₁ hsome ht₁ hb₁, ?_⟩
    rw [Program.meets_onOk_ok, Program.meets_bind, meets_writeJournalPhase]
    exact ⟨crashed_of_moved hl₂ hsome ht₁ hb₁, hplace⟩
  · have hj : journalBackup w₀ staged backupToken = none := if_neg hsome
    have hnone : w₀.nodes staged.entry.target = none := by simpa using hsome
    have hplace := meets_place h hl hs (ht.trans hnone) (hb.trans hnone.symm)
    rw [hj] at hplace ⊢
    exact hplace

/-- An install that may begin settles its transaction, and what its steps leave meanwhile is cut short or stranded. -/
theorem meets_installStagedSkill (h : Installing o w₀ staged operationId backupToken state tree) :
    (installStagedSkill o state staged operationId backupToken).Meets
      (fun t => InstallCrashed o w₀ staged operationId backupToken state tree t ∨ Stranded o t)
      (fun r t => r.isOk = true ∧ Settled o (.install staged operationId backupToken) w₀ t) w₀ := by
  have hresolve : resolveTemporary o w₀ staged.staging = .ok () :=
    resolve_staging h.relatedStaging h.target (by rw [h.content]; rfl)
  have hl : InstallLeft o w₀ staged operationId backupToken state tree .prepared state (w₀.setJournal (some (.value
      (installJournal operationId staged (journalBackup w₀ staged backupToken) state
        (replaceEntry state staged.entry) .prepared)))) :=
    { journal := h.readJournal (parse_replaceEntry h.normal h.accepts) .prepared
      read := h.read
      staging := .inr h.content
      elsewhere := fun _ _ _ _ => rfl }
  have hsteps := meets_installSteps h hl h.content rfl h.fresh
  unfold installStagedSkill
  simp only [Program.meets_bind, Program.meets_check, Program.meets_onOk_ok, Program.meets_read, h.target, hresolve,
    meets_writeJournal, Program.meets_tryCatch]
  refine ⟨.inl (.inr ⟨.prepared, state, hl, .untouched rfl rfl h.fresh rfl⟩), hsteps.mono (fun _ ht => ht) fun r t hr => ?_⟩
  cases r with
  | ok a => exact ⟨rfl, hr.2⟩
  | error e => exact absurd hr.1 (by simp [Except.isOk, Except.toBool])

/-- Where an install is admitted. -/
theorem installing_of_admits (hadmits : admitsTransaction o (.install staged operationId backupToken) w₀ = true) :
    ∃ state tree, Installing o w₀ staged operationId backupToken state tree := by
  unfold admitsTransaction at hadmits
  split at hadmits
  · rename_i state hread
    simp only [admitsInstall, Bool.and_eq_true, Option.isNone_iff_eq_none, bne_iff_ne, SkillTransaction.entry,
      SkillTransaction.operationId, SkillTransaction.backupToken, List.all_eq_true, Bool.or_eq_true, beq_iff_eq] at hadmits
    obtain ⟨⟨⟨⟨⟨hjournal, hid⟩, htoken⟩, hfresh⟩, htarget⟩, ⟨⟨⟨hvalid, howner⟩, hrelated⟩, hdigest⟩, hdigestible⟩ := hadmits
    have hok : ∀ {r : Except ManagedSkillsError Unit}, r.isOk = true → r = .ok () := by
      intro r hr
      cases r with
      | ok u => rfl
      | error e => exact absurd hr (by simp [Except.isOk, Except.toBool])
    obtain ⟨digest, hdigestOf, hsame⟩ : ∃ digest, digestManagedTarget o w₀ staged.staging = .ok digest ∧
        digest = some staged.entry.installedDigest := by
      split at hdigest
      · exact ⟨_, ‹_›, by simpa using hdigest⟩
      · exact absurd hdigest (by simp)
    obtain ⟨tree, hcontent, htree⟩ : ∃ tree, w₀.nodes staged.staging = some (.directory tree) ∧
        o.digest.digestDirectory tree = .ok staged.entry.installedDigest := by
      rw [hsame] at hdigestOf
      unfold digestManagedTarget at hdigestOf
      split at hdigestOf
      · rename_i tree hnode
        split at hdigestOf
        · rename_i d hd
          have heq : d = staged.entry.installedDigest := by simpa using hdigestOf
          exact ⟨tree, hnode, heq ▸ hd⟩
        · exact absurd hdigestOf (by simp)
      · exact absurd hdigestOf (by simp)
    refine ⟨state, tree, { journal := hjournal, read := hread, named := hid, token := htoken, accepts := ⟨hvalid, ?_⟩,
                           target := hok htarget, related := hrelated, content := hcontent, digest := htree, fresh := hfresh,
                           digestible := ?_ }⟩
    · intro e he hfold
      exact (howner e he).resolve_left fun hne => hne hfold
    · cases hd : digestManagedTarget o w₀ staged.entry.target with
      | ok d => exact ⟨d, rfl⟩
      | error e =>
        rw [hd] at hdigestible
        exact absurd hdigestible (by simp [Except.isOk, Except.toBool])
  · exact absurd hadmits (by simp)

/-- Recovery leaves a settled workspace as it is. -/
theorem recovers_settled {tx : SkillTransaction} {crash : Workspace τ → Prop} (hs : Settled o tx w₀ w) :
    (recoverPendingJournal o).Meets crash (fun r t => r = .ok () ∧ Settled o tx w₀ t) w := by
  have hj : readManagedSkillsJournal o.collation w.journal = .missing := by rw [hs.journal]; rfl
  simp only [recoverPendingJournal, loadPendingJournal, Program.meets_bind, Program.meets_read, Program.meets_onOk_ok, hj,
    Program.meets_pure]
  exact ⟨trivial, hs⟩

/-- At the backup of an install that was cut short stands a directory or nothing. -/
theorem directory_of_installNodes
    (hn : InstallNodes w₀ staged backupToken state (installedState o.collation state staged.entry) tree φ cur w) :
    assertDirectoryIfPresent "temporary" (installBackup staged backupToken)
      (w.nodes (installBackup staged backupToken)) = .ok () := by
  cases hn with
  | installed _ backup _ =>
    rcases backup with hnone | ⟨_, t, hdir⟩
    · rw [hnone]; rfl
    · rw [hdir]; rfl
  | untouched _ _ backup _ => rw [backup]; rfl
  | moved _ _ directory _ =>
    obtain ⟨t, hdir⟩ := directory
    rw [hdir]; rfl

/-- Recovery settles an install that was cut short. -/
theorem recovers_installCrashed (h : Installing o w₀ staged operationId backupToken state tree)
    (hc : InstallCrashed o w₀ staged operationId backupToken state tree w) :
    InstallRecovers o w₀ staged operationId backupToken state tree (recoverPendingJournal o) w := by
  rcases hc with hset | ⟨φ, cur, hl, hn⟩
  · exact recovers_settled hset
  · have hfence : (installedState o.collation state staged.entry).resourceConfigVersion = cur.resourceConfigVersion := by
      cases hn with
      | installed _ _ hstate => rcases hstate with rfl | rfl <;> rfl
      | untouched _ _ _ hstate => rw [hstate]; rfl
      | moved _ _ _ hstate => rw [hstate]; rfl
    have hstaging : resolveTemporary o w staged.staging = .ok () := by
      refine resolve_staging h.relatedStaging h.target ?_
      rcases hl.staging with hnone | hdir
      · rw [hnone]; rfl
      · rw [hdir]; rfl
    have hbackup : resolveTemporary o w (installBackup staged backupToken) = .ok () :=
      resolve_backup h.relatedBackup h.target (directory_of_installNodes hn)
    refine (meets_recover hl.journal h.target (fun p hp => ?_) (fun p hp => ?_) hl.read hfence).2 (recovers_install h hl hn)
    · obtain rfl : staged.staging = p := by simpa [installJournal] using hp
      exact ⟨assertTemporary_of_related h.relatedStaging h.target, hstaging⟩
    · obtain ⟨_, rfl⟩ := mem_journalBackup.1 hp
      exact ⟨assertTemporary_of_related h.relatedBackup h.target, hbackup⟩

end SkillRecoveryAux

end FirstTree
