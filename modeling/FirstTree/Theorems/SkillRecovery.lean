import FirstTree.Lemmas.SkillRemoval

/-!
# Recovery of the managed Skills transactions

A transaction of the managed Skills that a crash cuts short, and its recoveries that crashes cut short, leave a workspace that the
next recovery settles: the target and the state are both as before the transaction or both as after it. The one exception is a
crash in a stranded workspace: the rollback has put the old target back while the journal says that it was backed up, or what was
backed up is no directory. There every later recovery refuses.
-/

namespace FirstTree

open Durable Runs ManagedStateAux

variable {τ : Type}

namespace SkillRecoveryAux

open ManagedSkillsAux

variable {o : ManagedSkillsOptions τ} {w : Workspace τ} {state cur : ManagedState}

/-! ## The service -/

/-- What a transaction that began in a workspace may leave when it is cut short. -/
def Crashed (o : ManagedSkillsOptions τ) (tx : SkillTransaction) (w₀ w : Workspace τ) : Prop :=
  match tx with
  | .install staged operationId backupToken =>
    Settled o (.install staged operationId backupToken) w₀ w ∨
      ∃ state tree, Installing o w₀ staged operationId backupToken state tree ∧
        InstallCrashed o w₀ staged operationId backupToken state tree w
  | .remove entry operationId backupToken =>
    Settled o (.remove entry operationId backupToken) w₀ w ∨
      ∃ state, Removing o w₀ entry operationId backupToken state ∧ RemoveCrashed o w₀ entry operationId backupToken state w

/-- Reading the current state of a workspace and going on with it. -/
theorem meets_runTransaction {tx : SkillTransaction} {crash : Workspace τ → Prop} {post : Except ManagedSkillsError Unit →
    Workspace τ → Prop} (hr : readManagedStateResult o.collation w.state = .current state) :
    (runTransaction o tx).Meets crash post w ↔ (runOn o state tx).Meets crash post w := by
  rw [runTransaction, Program.meets_bind, Program.meets_read, Program.meets_onOk_ok, hr]

/-- Recovery takes what a transaction leaves when it is cut short to where it is settled, unless its own crashes strand it. -/
theorem recovers_managedSkills (o : ManagedSkillsOptions τ) :
    Recovers (managedSkillsService o) (Crashed o) (Settled o) (Stranded o) where
  operation tx w₀ hadmits := by
    cases tx with
    | install staged operationId backupToken =>
      obtain ⟨state, tree, h⟩ := installing_of_admits hadmits
      refine (meets_runTransaction h.read).2 (Program.meets_bind.2 ?_)
      refine (meets_installStagedSkill h).mono ?_ fun r t hr => ?_
      · rintro t (hc | hs)
        · exact .inl (.inr ⟨state, tree, h, hc⟩)
        · exact .inr hs
      · cases r with
        | ok a => exact hr.2
        | error e => exact hr.2
    | remove entry operationId backupToken =>
      obtain ⟨state, h⟩ := removing_of_admits hadmits
      refine (meets_runTransaction h.read).2 (Program.meets_bind.2 ?_)
      refine (meets_removeManagedEntry h).mono ?_ fun r t hr => ?_
      · rintro t (hc | hs)
        · exact .inl (.inr ⟨state, h, hc⟩)
        · exact .inr hs
      · cases r with
        | ok a => exact hr
        | error e => exact hr
  recovery tx w₀ w hc := by
    cases tx with
    | install staged operationId backupToken =>
      rcases hc with hset | ⟨state, tree, h, hc⟩
      · exact recovers_settled hset
      · refine (recovers_installCrashed h hc).mono ?_ fun _ _ hr => hr
        rintro t (hc | hs)
        · exact .inl (.inr ⟨state, tree, h, hc⟩)
        · exact .inr hs
    | remove entry operationId backupToken =>
      rcases hc with hset | ⟨state, h, hc⟩
      · exact recovers_settled hset
      · refine (recovers_removeCrashed h hc).mono ?_ fun _ _ hr => hr
        rintro t (hc | hs)
        · exact .inl (.inr ⟨state, h, hc⟩)
        · exact .inr hs
  settled tx w₀ w hset := by
    cases tx with
    | install staged operationId backupToken => exact .inl hset
    | remove entry operationId backupToken => exact .inl hset

/-! ## Stranded workspaces -/

/-- A recovery that refuses before it has changed anything. -/
def Refuses (p : WorkspaceProgram τ Unit) (w : Workspace τ) : Prop :=
  p.Meets (fun _ => False) (fun r t => r.isOk = false ∧ t = w) w

/-- An install whose journal says that its target was backed up, with another target and no backup, is refused. -/
theorem refuses_install {journal : ManagedSkillsJournal} (hp : journal.phase ≠ .prepared)
    (ht : (w.nodes journal.target).isSome = true) (hb : ∀ p ∈ journal.backup, w.nodes p = none)
    (hd : digestManagedTarget o w journal.target ≠ .ok journal.expectedInstalledDigest) :
    Refuses (recoverInterruptedInstall o journal) w := by
  have hnone : (journal.backup.any fun p => (w.nodes p).isSome) = false := by
    cases h : journal.backup with
    | none => rfl
    | some p => simp [hb p h]
  cases hdigest : digestManagedTarget o w journal.target with
  | error e =>
    simp only [Refuses, recoverInterruptedInstall, Program.meets_bind, Program.meets_read, Program.meets_onOk_ok, hdigest,
      Program.meets_check, Program.meets_onOk_error]
    exact ⟨rfl, trivial⟩
  | ok d =>
    have hne : d ≠ journal.expectedInstalledDigest := fun heq => hd (heq ▸ hdigest)
    rw [Refuses, meets_recoverInstall_else hdigest hne, if_neg fun hc => hp hc.1]
    simp only [hnone, ht, Bool.not_false, Bool.not_true, Bool.and_false, Bool.false_eq_true, if_false]
    cases journal.backup <;> exact ⟨rfl, rfl⟩

/-- A removal whose journal says that its target was backed up, with a target and no backup, is refused. -/
theorem refuses_removal {journal : ManagedSkillsJournal} (hp : journal.phase ≠ .prepared)
    (ht : (w.nodes journal.target).isSome = true) (hb : ∀ p ∈ journal.backup, w.nodes p = none) :
    Refuses (recoverInterruptedRemoval o journal cur) w := by
  have hnone : (journal.backup.any fun p => (w.nodes p).isSome) = false := by
    cases h : journal.backup with
    | none => rfl
    | some p => simp [hb p h]
  simp only [Refuses, recoverInterruptedRemoval, Program.meets_bind, Program.meets_read, Program.meets_onOk_ok, hnone, ht,
    Bool.false_and, Bool.not_true, Bool.false_eq_true, if_false, if_neg fun hc : _ ∧ _ => hp hc.1]
  cases journal.backup <;> exact ⟨rfl, rfl⟩

/-- A check before the rest of a recovery: it refuses or changes nothing. -/
theorem refuses_check {α : Type} {r : Except ManagedSkillsError α} {f : α → WorkspaceProgram τ Unit}
    (h : ∀ a, r = .ok a → Refuses (f a) w) : Refuses (Program.onOk f r) w := by
  cases r with
  | ok a => exact h a rfl
  | error e => exact ⟨rfl, rfl⟩

/-- Loading a journal changes nothing, and what is loaded is the journal. -/
theorem refuses_load {journal : ManagedSkillsJournal} (hj : readManagedSkillsJournal o.collation w.journal = .current journal)
    {f : Option (ManagedSkillsJournal × ManagedState) → WorkspaceProgram τ Unit} (h : ∀ cur, Refuses (f (some (journal, cur))) w) :
    Refuses (loadPendingJournal o >>= f) w := by
  simp only [Refuses, loadPendingJournal, Program.meets_bind, Program.meets_read, Program.meets_onOk_ok, hj, Program.meets_check]
  cases assertManagedTarget o journal.target with
  | error e => exact ⟨rfl, rfl⟩
  | ok _ =>
    simp only [Program.meets_onOk_ok, Program.meets_bind, Program.meets_check]
    cases journal.staging.forM fun staging => assertTemporaryTarget o staging ".staging" with
    | error e => exact ⟨rfl, rfl⟩
    | ok _ =>
      simp only [Program.meets_onOk_ok, Program.meets_bind, Program.meets_check]
      cases journal.backup.forM fun backup => assertTemporaryTarget o backup ".backup" with
      | error e => exact ⟨rfl, rfl⟩
      | ok _ =>
        simp only [Program.meets_onOk_ok, Program.meets_bind, Program.meets_read]
        cases readManagedStateResult o.collation w.state with
        | missing => exact h _
        | legacy skills => exact ⟨rfl, rfl⟩
        | future schemaVersion => exact ⟨rfl, rfl⟩
        | invalid reason => exact ⟨rfl, rfl⟩
        | current state =>
          by_cases hfence : journal.afterState.resourceConfigVersion < state.resourceConfigVersion
          · simp only [if_pos hfence]
            exact ⟨rfl, rfl⟩
          · simp only [if_neg hfence]
            exact h _

/-- At a temporary path that is resolved stands a directory or nothing. -/
theorem directory_of_resolved {p : WorkspacePath} {u : Unit} (h : resolveTemporary o w p = .ok u) :
    assertDirectoryIfPresent "temporary" p (w.nodes p) = .ok u := by
  unfold resolveTemporary at h
  generalize assertTemporaryTarget o p _ = r at h
  cases r with
  | ok _ => exact h
  | error e => exact absurd h (by simp [bind, Except.bind])

/-- No recovery gets a stranded workspace further: it refuses and leaves the workspace as it is. -/
theorem recovery_of_stranded (hs : Stranded o w) : Refuses (recoverPendingJournal o) w := by
  obtain ⟨journal, hj, hcase⟩ := hs
  refine refuses_load hj fun cur => ?_
  simp only [Refuses, Program.meets_bind, Program.meets_read, Program.meets_onOk_ok, Program.meets_check]
  refine refuses_check fun _ _ => ?_
  simp only [Refuses, Program.meets_bind, Program.meets_read, Program.meets_onOk_ok, Program.meets_check]
  refine refuses_check fun _ hresolved => ?_
  rcases hcase with ⟨hp, ht, hb, hd⟩ | ⟨p, hp, hnode⟩
  · cases hop : journal.operation with
    | install => exact refuses_install hp ht hb (hd.resolve_left (by simp [hop]))
    | remove => exact refuses_removal hp ht hb
  · rw [show journal.backup = some p from hp] at hresolved
    have hdir := directory_of_resolved hresolved
    rcases hnode with hnode | hnode <;> rw [hnode] at hdir <;> exact absurd hdir (by simp [assertDirectoryIfPresent])

end SkillRecoveryAux

open SkillRecoveryAux

/-- In every run from a workspace, what a crash leaves behind the next recovery that is not cut short settles without an error. -/
def AlwaysRecovers (o : ManagedSkillsOptions τ)
    (steps : Host SkillTransaction (Workspace τ) ManagedSkillsError → Event SkillTransaction →
      Host SkillTransaction (Workspace τ) ManagedSkillsError → Prop) : Prop :=
  ∀ w es h, Run steps { store := w, begun := none, process := none } es h → Settles (managedSkillsService o) (Settled o) h

/-- In every run whose crashes spare the stranded workspaces, recovery settles every transaction, wherever the crashes come. -/
theorem managed_skills_recover (o : ManagedSkillsOptions τ) :
    AlwaysRecovers o (Guarded (SparedBy (Stranded o)) (ofPartial (managedSkillsService o).step)) :=
  fun _ _ _ hr => settles_of_run (recovers_managedSkills o) rfl hr

/-- In a stranded workspace every recovery fails and leaves the workspace as it is. -/
theorem stranded_recovery_fails {o : ManagedSkillsOptions τ} {w : Workspace τ} (hs : Stranded o w) :
    ∃ e, (recoverPendingJournal o).run w = (.error e, w) := by
  obtain ⟨hfails, hsame⟩ := (recovery_of_stranded hs).run
  cases hr : ((recoverPendingJournal o).run w).1 with
  | ok a => exact absurd hfails (by simp [hr, Except.isOk, Except.toBool])
  | error e => exact ⟨e, Prod.ext hr hsame⟩

/-- A digest of two trees. -/
def twoTrees : TreeDigest Bool where
  digestDirectory tree := .ok ("sha256:" ++ String.ofList (List.replicate 64 (if tree then 'a' else 'b')))
  injective := by
    intro a b digest ha hb
    have heq := ha.trans hb.symm
    revert heq
    cases a <;> cases b <;> decide

/-- A workspace whose provider reads the Skills of one root. -/
def oneRoot : ManagedSkillsOptions Bool :=
  { allowedRoots := [[".agents", "skills"]]
    collation := { localeCompare := compare, trans := inferInstance }
    digest := twoTrees
    quarantineKey := fun _ => "0" }

/-- An entry of a Team Skill at a revision. -/
def reviewEntry (revision : String) (tree : Bool) : ManagedSkillEntry :=
  { key := "resource:review"
    target := [".agents", "skills", "review"]
    requestedSlug := "review"
    effectiveName := "review"
    revision := revision
    installedDigest := "sha256:" ++ String.ofList (List.replicate 64 (if tree then 'a' else 'b')) }

/-- An update of a Team Skill. -/
def reviewUpdate : SkillTransaction :=
  .install { staging := temporaryPath [".agents", "skills", "review"] "0000" ".staging", entry := reviewEntry "v2" false } "1" "1111"

/-- The workspace before the update: the Skill as it was installed, and its new tree staged. -/
def reviewWorkspace : Workspace Bool :=
  { journal := none
    state := some (.value { resourceConfigVersion := 1, skills := [reviewEntry "v1" true] })
    nodes := fun p =>
      if p = [".agents", "skills", "review"] then some (.directory true)
      else if p = temporaryPath [".agents", "skills", "review"] "0000" ".staging" then some (.directory false)
      else none }

/-- The update crashes once its target is backed up, and the recovery crashes once it has put the old target back. -/
def strandedCrashes : List (Event SkillTransaction) :=
  [.begin reviewUpdate, .step, .step, .crash, .recover, .step, .crash]

set_option maxRecDepth 4000 in
/-- Recovery does not settle every transaction: a crash of the update after the target was backed up, then one of the recovery right
after it has moved the backup back, leave a workspace that every later recovery refuses. -/
theorem managed_skills_stranded : ¬ AlwaysRecovers oneRoot (ofPartial (managedSkillsService oneRoot).step) := by
  intro halways
  have hlast : (strandedCrashes.foldlM (managedSkillsService oneRoot).step
      { store := reviewWorkspace, begun := none, process := none }).map
      (fun h => (h.begun.isSome, h.process.isNone, ((managedSkillsService oneRoot).recovery.run h.store).1.isOk)) =
      some (true, true, false) := by decide
  obtain ⟨h, hrun, hend⟩ := Option.map_eq_some_iff.1 hlast
  simp only [Prod.mk.injEq, Option.isNone_iff_eq_none] at hend
  obtain ⟨hbegun, hnone, hrefused⟩ := hend
  obtain ⟨⟨tx, w₀⟩, htx⟩ := Option.isSome_iff_exists.1 hbegun
  have hok := (halways _ _ _ (Run.of_foldlM hrun) tx w₀ htx hnone).1
  rw [hok] at hrefused
  exact absurd hrefused (by simp [Except.isOk, Except.toBool])

end FirstTree
