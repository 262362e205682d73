import FirstTree.Lemmas.SkillDigest
import FirstTree.Lib.Checks

/-!
# Skill digests identify trees

The digest of a tree determines it, and does not depend on the order of `readdir` exactly when no two names of a directory tie in the
comparison of the locale; under the same condition, the marker counted among the names of the root, the digest of a bundled source
is that of its staged copy.
-/

namespace FirstTree

open SkillDigest SkillPaths

variable {δ : Type}

/-- The content of a node, as a digest has it under a policy. -/
def SkillNode.content (policy : SkillTreeModePolicy) : SkillNode → NodeContent
  | .file mode content => .file (modeUnder policy mode &&& 0o111) content
  | .directory _ _ => .directory
  | .symlink => .symlink
  | .special => .special

/-- The contents of a tree: for each relative path the kind, the execute bits and the bytes. -/
def SkillTree.contents (policy : SkillTreeModePolicy) (tree : SkillTree) (path : List FileName) : Option NodeContent :=
  (tree.node path).map (SkillNode.content policy)

/-- No two names of a directory tie in the comparison of the locale, some names counted among those of the root. -/
def SiblingsApart (env : SkillRuntime δ) (tree : SkillTree) (extra : List FileName) : Prop :=
  ∀ path mode names, tree.node path = some (.directory mode names) →
    ComparatorSort.Separates (compareNames env) (names ++ if path = [] then extra else [])

/-- A tree that has a digest: it is within the limits, without links, special files and unsafe modes. -/
def HasDigest (env : SkillRuntime δ) (platform : NodePlatform) (tree : SkillTree) : Prop :=
  ∃ d, digestDirectory env tree platform = .ok d

/-- The digest of a tree does not depend on the order of `readdir`, and every tree with the same digest has the same contents. -/
structure DigestIdentifies (env : SkillRuntime δ) (platform : NodePlatform) (tree : SkillTree) : Prop where
  ordered : ∀ tree', tree.SameTree tree' → digestDirectory env tree' platform = digestDirectory env tree platform
  determined : ∀ tree', digestDirectory env tree' platform = digestDirectory env tree platform →
    tree'.contents .enforce_safe = tree.contents .enforce_safe

/-- A bundled Skill that stages: its source is copied, its manifest is valid, and the staged tree has a digest. -/
def Stages (env : SkillRuntime δ) (platform : NodePlatform) (allocated : AllocatedBundledSkill) : Prop :=
  ∃ staged : SkillTree, stagedDisk env allocated = .ok staged.shapes ∧ HasDigest env platform staged

/-- The digest of the source is that of the staged copy in every order of `readdir`, and a source with the digest of the staged
copy has the contents of the source that was staged. -/
structure DigestsAgree (env : SkillRuntime δ) (platform : NodePlatform) (allocated : AllocatedBundledSkill) : Prop where
  agree : ∀ staged source', stagedDisk env allocated = .ok staged.shapes → allocated.source.SameTree source' →
    digestBundledFinalTree env source' allocated.key allocated.revision platform = digestDirectory env staged platform
  noticed : ∀ staged source' d, stagedDisk env allocated = .ok staged.shapes → digestDirectory env staged platform = .ok d →
    digestBundledFinalTree env source' allocated.key allocated.revision platform = .ok d →
    source'.contents .normalize_bundled = allocated.source.contents .normalize_bundled

/-- What is claimed of the digests: those of trees identify them, those of bundled sources agree with those of their staged copies. -/
structure SkillDigestsSound (env : SkillRuntime δ) (platform : NodePlatform) : Prop where
  trees : ∀ tree, HasDigest env platform tree → DigestIdentifies env platform tree
  bundled : ∀ allocated, Stages env platform allocated → DigestsAgree env platform allocated

namespace SkillDigestAux

variable {env : SkillRuntime δ} {platform : NodePlatform}

/-! ## Trees read in another order -/

/-- The order of the names compares consistently. -/
theorem transCmp_names (env : SkillRuntime δ) : Std.TransCmp (compareNames env) :=
  ComparatorSort.transCmp_on env.collation.trans fun name : FileName => String.ofList name.text

/-- The shape of a node says which node it is, but for the order of its names. -/
theorem node_of_shape {tree tree' : SkillTree} (h : tree.SameTree tree') {path : List FileName} {x : SkillNode}
    (hx : tree.node path = some x) : ∃ x', tree'.node path = some x' ∧ x'.shape = x.shape := by
  have h := congrFun h path
  rw [SkillTree.shapes, SkillTree.shapes, hx, Option.map_some] at h
  obtain ⟨x', hx', hshape⟩ := Option.map_eq_some_iff.mp h
  exact ⟨x', hx', hshape⟩

/-- The names of two directories that have the same nodes below them. -/
theorem perm_names {tree tree' : SkillTree} {path : List FileName} {mode mode' : Nat} {names names' extra : List FileName}
    (h : tree.node path = some (.directory mode names)) (h' : tree'.node path = some (.directory mode' names'))
    (hextra : (names ++ extra).Nodup)
    (hsome : ∀ name, (tree'.node (path ++ [name])).isSome = true ↔ (tree.node (path ++ [name])).isSome = true ∨ name ∈ extra) :
    (names ++ extra).Perm names' := by
  refine (List.perm_ext_iff_of_nodup hextra (tree'.listed path mode' names' h').1).mpr fun name => ?_
  rw [List.mem_append, (tree.listed path mode names h).2, (tree'.listed path mode' names' h').2, hsome]

/-- A tree with the names of one directory in another order. -/
def relist (tree : SkillTree) (path : List FileName) (mode : Nat) (names names' : List FileName)
    (hnode : tree.node path = some (.directory mode names)) (hperm : names'.Perm names) : SkillTree where
  node q := if q = path then some (.directory mode names') else tree.node q
  listed q mode' entries h := by
    have hsome : ∀ r, (if r = path then some (SkillNode.directory mode names') else tree.node r).isSome = (tree.node r).isSome :=
      fun r => by
      by_cases hr : r = path
      · rw [if_pos hr, hr, hnode]
        rfl
      · rw [if_neg hr]
    by_cases hq : q = path
    · subst hq
      rw [if_pos rfl] at h
      obtain ⟨_, rfl⟩ := SkillNode.directory.inj (Option.some.inj h)
      obtain ⟨hnodup, hlisted⟩ := tree.listed q mode names hnode
      exact ⟨hperm.nodup_iff.mpr hnodup, fun name => by rw [hsome, hperm.mem_iff, hlisted]⟩
    · rw [if_neg hq] at h
      obtain ⟨hnodup, hlisted⟩ := tree.listed q mode' entries h
      exact ⟨hnodup, fun name => by rw [hsome, hlisted]⟩
  parent q name h := by
    have hsome : (tree.node (q ++ [name])).isSome = true := by
      by_cases hr : q ++ [name] = path
      · rw [hr, hnode]
        rfl
      · rw [if_neg hr] at h
        exact h
    by_cases hq : q = path
    · exact ⟨mode, names', if_pos hq⟩
    · rw [if_neg hq]
      exact tree.parent q name hsome

/-- It is the same tree. -/
theorem sameTree_relist {tree : SkillTree} {path : List FileName} {mode : Nat} {names names' : List FileName}
    (hnode : tree.node path = some (.directory mode names)) (hperm : names'.Perm names) :
    tree.SameTree (relist tree path mode names names' hnode hperm) := by
  funext q
  by_cases hq : q = path
  · simp only [SkillTree.shapes, relist, hq, if_true, hnode, Option.map_some, SkillNode.shape]
  · simp only [SkillTree.shapes, relist, hq, if_false]

/-- A digest is the hash of a walk. -/
theorem digest_eq_ok {tree : SkillTree} {virtualRootFile : Option VirtualRootFile} {policy : SkillTreeModePolicy} {d : δ} :
    ((hashDirectoryRecursive env tree virtualRootFile platform policy (maxDepth + 1) [] HashState.init).map
      fun s => env.sha256 s.hashed) =
        .ok d ↔
      ∃ s, walkView env (viewOf env tree virtualRootFile platform policy) (maxDepth + 1) [] HashState.init = .ok s ∧
        env.sha256 s.hashed = d := by
  rw [hashDirectoryRecursive_eq]
  cases walkView env (viewOf env tree virtualRootFile platform policy) (maxDepth + 1) [] HashState.init with
  | error e => exact ⟨fun h => (nomatch h), fun ⟨_, h, _⟩ => (nomatch h)⟩
  | ok s =>
    constructor
    · intro h
      exact ⟨s, rfl, Except.ok.inj h⟩
    · rintro ⟨s', hs, rfl⟩
      obtain rfl := Except.ok.inj hs
      rfl

/-- The names added to a directory. -/
theorem names_added (virtualRootFile : Option VirtualRootFile) (path : List FileName) :
    ((if path = [] then virtualRootFile else none).map (·.name)).toList =
      if path = [] then (virtualRootFile.map (·.name)).toList else [] := by
  split <;> rfl

/-- A tree whose siblings are apart has one view, whatever the order of `readdir`. -/
theorem viewOf_sameTree {tree tree' : SkillTree} (hsame : tree.SameTree tree') {extra : List FileName}
    (hapart : SiblingsApart env tree extra) (virtualRootFile : Option VirtualRootFile)
    (hextra : (virtualRootFile.map (·.name)).toList = extra) (policy : SkillTreeModePolicy) :
    viewOf env tree' virtualRootFile platform policy = viewOf env tree virtualRootFile platform policy := by
  funext path
  unfold viewOf
  cases hx : tree.node path with
  | none =>
    have hnone : tree'.node path = none := by
      have h := congrFun hsame path
      rw [SkillTree.shapes, SkillTree.shapes, hx] at h
      exact Option.map_eq_none_iff.mp h
    rw [hnone]
  | some x =>
    obtain ⟨x', hx', hshape⟩ := node_of_shape hsame hx
    rw [hx']
    cases x <;> cases x' <;> simp only [SkillNode.shape, reduceCtorEq, NodeShape.file.injEq, NodeShape.directory.injEq] at hshape
    · rw [hshape.1, hshape.2]
    · rename_i mode names mode' names'
      subst hshape
      have hsome : ∀ name, (tree'.node (path ++ [name])).isSome = true ↔
          (tree.node (path ++ [name])).isSome = true ∨ name ∈ ([] : List FileName) := fun name => by
        have h := congrArg Option.isSome (congrFun hsame (path ++ [name]))
        simpa [SkillTree.shapes] using iff_of_eq (congrArg (· = true) h)
      have hnodup : (names ++ []).Nodup := by simpa using (tree.listed path _ names hx).1
      have hperm : names.Perm names' := by simpa using perm_names hx hx' hnodup hsome
      dsimp only
      congr 2
      rw [names_added, hextra]
      exact (ComparatorSort.sortBy_eq_of_perm (transCmp_names env) (hapart path _ names hx) (hperm.append_right _)).symm
    · rfl
    · rfl

/-- The digest does not depend on the order of `readdir` when siblings are apart. -/
theorem ordered_of_apart {tree : SkillTree} (hapart : SiblingsApart env tree []) {tree' : SkillTree} (hsame : tree.SameTree tree') :
    digestDirectory env tree' platform = digestDirectory env tree platform := by
  rw [digestDirectory, digestDirectory, hashDirectoryRecursive_eq, hashDirectoryRecursive_eq,
    viewOf_sameTree hsame hapart none rfl .enforce_safe]

/-- When the digest of a tree does not depend on the order of `readdir`, its siblings are apart: two that tie could be exchanged. -/
theorem apart_of_ordered {tree : SkillTree} (hdigest : HasDigest env platform tree)
    (hordered : ∀ tree', tree.SameTree tree' → digestDirectory env tree' platform = digestDirectory env tree platform) :
    SiblingsApart env tree [] := by
  intro path mode names hnode a ha b hb htie
  rw [ite_self, List.append_nil] at ha hb
  by_contra hne
  obtain ⟨d, hd⟩ := hdigest
  have hb' : b ∈ names.erase a := (List.mem_erase_of_ne (Ne.symm hne)).mpr hb
  have hperm : (a :: b :: (names.erase a).erase b).Perm names :=
    ((List.perm_cons_erase hb').cons a |>.symm).trans (List.perm_cons_erase ha).symm
  have hperm' : (b :: a :: (names.erase a).erase b).Perm names := (List.Perm.swap a b _).trans hperm
  obtain ⟨s, hs, hds⟩ := digest_eq_ok.mp ((hordered _ (sameTree_relist hnode hperm)).trans hd)
  obtain ⟨s', hs', hds'⟩ := digest_eq_ok.mp ((hordered _ (sameTree_relist hnode hperm')).trans hd)
  have hrecords := records_of_same_digest hs hs' (hds.trans hds'.symm)
  -- each order is read back from the records
  have hnames : ∀ {l : List FileName} (hl : l.Perm names) {s : HashState}, walkView env
      (viewOf env (relist tree path mode names l hnode hl) none platform .enforce_safe) (maxDepth + 1) [] HashState.init = .ok s →
      (recordsOf (viewOf env (relist tree path mode names l hnode hl) none platform .enforce_safe) (maxDepth + 1) []).filterMap
        (childOf ([] ++ path)) = sortNames env l := by
    intro l hl s hs
    have hrelist : (relist tree path mode names l hnode hl).node path = some (.directory mode l) := if_pos rfl
    have hview : viewOf env (relist tree path mode names l hnode hl) none platform .enforce_safe ([] ++ path) =
        some (.directory (refusesMode .enforce_safe platform mode) (sortNames env l)) := by
      rw [List.nil_append, viewOf, hrelist]
      simp
    exact names_of_records (listed_viewOf (root_of_walk hs)) (walkView_ok hs).1 hview
  have heq := (hnames hperm hs).symm.trans ((congrArg _ hrecords).trans (hnames hperm' hs'))
  exact ComparatorSort.sortBy_ne_of_tie (transCmp_names env) hne htie _ heq

/-- The content of a node of a view is that of the tree. -/
theorem content_viewOf (env : SkillRuntime δ) (platform : NodePlatform) {tree : SkillTree} {virtualRootFile : Option VirtualRootFile}
    {policy : SkillTreeModePolicy} {path : List FileName} (hfresh : ∀ file, virtualRootFile = some file → path ≠ [file.name]) :
    (viewOf env tree virtualRootFile platform policy path).map ViewNode.content = tree.contents policy path := by
  unfold viewOf SkillTree.contents
  cases tree.node path with
  | some x => cases x <;> rfl
  | none =>
    cases virtualRootFile with
    | none => rfl
    | some file =>
      have hne : (path == [file.name]) = false := beq_eq_false_iff_ne.mpr (hfresh file rfl)
      simp [Option.filter_some, hne]

/-- Trees with the same digest have the same contents. -/
theorem contents_of_same_digest {tree tree' : SkillTree} {d : δ} (h : digestDirectory env tree platform = .ok d)
    (h' : digestDirectory env tree' platform = .ok d) : tree'.contents .enforce_safe = tree.contents .enforce_safe := by
  obtain ⟨s, hs, hds⟩ := digest_eq_ok.mp h
  obtain ⟨s', hs', hds'⟩ := digest_eq_ok.mp h'
  have hrecords := records_of_same_digest hs' hs (hds'.trans hds.symm)
  funext path
  cases path with
  | nil =>
    obtain ⟨mode, names, hroot⟩ := root_of_walk hs
    obtain ⟨mode', names', hroot'⟩ := root_of_walk hs'
    rw [SkillTree.contents, SkillTree.contents, hroot, hroot']
    rfl
  | cons name path =>
    have hfresh : ∀ file : VirtualRootFile, none = some file → name :: path ≠ [file.name] := fun _ h => nomatch h
    rw [← content_viewOf env platform hfresh, ← content_viewOf env platform hfresh]
    exact contents_of_same_records (listed_viewOf (root_of_walk hs')) (listed_viewOf (root_of_walk hs)) (walkView_ok hs').1
      (walkView_ok hs).1 hrecords (List.cons_ne_nil name path)

/-! ## The staged copy -/

/-- What the copy writes for a node. -/
def copiedShape : SkillNode → NodeShape
  | .file mode content => .file (normalizedBundledFileMode mode) content
  | .directory _ _ => .directory 0o700
  | .symlink => .symlink
  | .special => .special

/-- A part of the copy: it has written the nodes under some paths, and left the others. -/
structure Copied (source : SkillTree) (P : List FileName → Prop) (s s' : CopyState) : Prop where
  written : ∀ path x, P path → source.node path = some x → s'.disk path = some (copiedShape x)
  kept : ∀ path, (P path → source.node path = none) → s'.disk path = s.disk path

/-- Two parts of the copy one after the other. -/
theorem Copied.trans {source : SkillTree} {P Q : List FileName → Prop} {s s' s'' : CopyState} (h : Copied source P s s')
    (h' : Copied source Q s' s'') : Copied source (fun path => P path ∨ Q path) s s'' := by
  refine ⟨fun path x hpath hx => ?_, fun path hnot => ?_⟩
  · by_cases hq : Q path
    · exact h'.written path x hq hx
    · rw [h'.kept path fun hq' => absurd hq' hq]
      exact h.written path x (hpath.resolve_right hq) hx
  · rw [h'.kept path fun hq => hnot (Or.inr hq), h.kept path fun hp => hnot (Or.inl hp)]

/-- A part of the copy, described by other paths with the same nodes. -/
theorem Copied.congr {source : SkillTree} {P Q : List FileName → Prop} {s s' : CopyState} (h : Copied source P s s')
    (hPQ : ∀ path x, source.node path = some x → (P path ↔ Q path)) : Copied source Q s s' := by
  refine ⟨fun path x hq hx => h.written path x ((hPQ path x hx).mpr hq) hx, fun path hnot => h.kept path fun hp => ?_⟩
  by_contra hne
  obtain ⟨x, hx⟩ := Option.ne_none_iff_exists'.mp hne
  exact hne (hnot ((hPQ path x hx).mp hp))

/-- What is written is there. -/
theorem disk_write_self (s : CopyState) (path : List FileName) (shape : NodeShape) : (s.write path shape).disk path = some shape :=
  Function.update_self ..

/-- Every other path is as it was. -/
theorem disk_write_of_ne {s : CopyState} {path q : List FileName} {shape : NodeShape} (h : q ≠ path) :
    (s.write path shape).disk q = s.disk q :=
  Function.update_of_ne h ..

/-- One path written. -/
theorem copied_write {source : SkillTree} {path : List FileName} {x : SkillNode} (hx : source.node path = some x) (s : CopyState) :
    Copied source (· = path) s (s.write path (copiedShape x)) := by
  refine ⟨fun q y hq hy => ?_, fun q hnot => ?_⟩
  · subst hq
    obtain rfl := Option.some.inj (hx.symm.trans hy)
    exact disk_write_self ..
  · have hne : q ≠ path := fun hq => by
      have hnone := hnot hq
      rw [hq, hx] at hnone
      exact nomatch hnone
    exact disk_write_of_ne hne

/-- What is above a node of a tree is a directory. -/
theorem directory_above_node {tree : SkillTree} {path : List FileName} {name : FileName} {rest : List FileName}
    (h : (tree.node (path ++ name :: rest)).isSome = true) : ∃ mode names, tree.node path = some (.directory mode names) :=
  above (S := fun path => (tree.node path).isSome = true) tree.parent (fun path => by
    rintro ⟨mode, names, hdir⟩
    rw [hdir]
    rfl) h

/-- Below a file there is nothing. -/
theorem eq_of_prefix_of_file {tree : SkillTree} {path q : List FileName} {mode : Nat} {content : List UInt8} {x : SkillNode}
    (hfile : tree.node path = some (.file mode content)) (hbelow : path <+: q) (hx : tree.node q = some x) : q = path := by
  obtain ⟨rest, rfl⟩ := hbelow
  cases rest with
  | nil => exact List.append_nil path
  | cons name rest =>
    obtain ⟨_, _, hdir⟩ := directory_above_node (by rw [hx]; rfl : (tree.node (path ++ name :: rest)).isSome = true)
    exact nomatch hfile.symm.trans hdir

/-- A file that is copied is written and nothing else. -/
theorem copied_copyFile {source : SkillTree} {path : List FileName} {mode : Nat} {content : List UInt8} {s s' : CopyState}
    (hfile : source.node path = some (.file mode content)) (h : copyFile path mode content s = .ok s') :
    Copied source (path <+: ·) s s' := by
  unfold copyFile at h
  split at h
  · exact nomatch h
  · split at h
    · exact nomatch h
    · split at h
      · exact nomatch h
      · obtain rfl := Except.ok.inj h
        have hcopied := copied_write hfile { s with files := s.files + 1, bytes := s.bytes + content.length }
        have hbelow : ∀ q x, source.node q = some x → (q = path ↔ path <+: q) := fun q x hx =>
          ⟨fun hq => hq ▸ List.prefix_rfl, fun hprefix => eq_of_prefix_of_file hfile hprefix hx⟩
        exact ⟨(hcopied.congr hbelow).written, (hcopied.congr hbelow).kept⟩

/-- A directory that is copied: it has no marker at the root, and all below it is written. -/
theorem copied_directory {source : SkillTree} {levels : Nat} {path : List FileName} {s s' : CopyState}
    (h : copySanitizedDirectory env source levels path s = .ok s') :
    (∃ mode entries, source.node path = some (.directory mode entries) ∧ (path = [] → markerName ∉ entries)) ∧
      Copied source (path <+: ·) s s' := by
  induction levels generalizing path s s' with
  | zero => exact absurd h (by simp [copySanitizedDirectory])
  | succ levels ih =>
    rw [copySanitizedDirectory] at h
    split at h
    · rename_i mode entries hnode
      obtain ⟨_, hmarker, hcopied⟩ := visitNames_ok (Q := fun name => ¬ (path = [] ∧ name = markerName))
        (R := fun names s s' => Copied source (fun q => ∃ name ∈ names, path ++ [name] <+: q) s s')
        (fun s => ⟨fun _ _ ⟨_, hn, _⟩ => absurd hn List.not_mem_nil, fun _ _ => rfl⟩)
        (fun name s s' hs => by
          have hstep : ¬ (path = [] ∧ name = markerName) ∧ Copied source (path ++ [name] <+: ·) s s' := by
            dsimp only at hs
            split at hs
            · exact absurd hs (by simp)
            · split at hs
              · exact absurd hs (by simp)
              · rename_i hmarker
                refine ⟨hmarker, ?_⟩
                split at hs
                · exact absurd hs (by simp)
                · exact absurd hs (by simp)
                · exact (ih hs).2
                · exact absurd hs (by simp)
                · rename_i hfile
                  exact copied_copyFile hfile hs
          refine ⟨hstep.1, fun names s'' hrest => (hstep.2.trans hrest).congr fun q x _ => ?_⟩
          simp) h
      have hnames : ∀ name, name ∈ sortNames env entries ↔ (source.node (path ++ [name])).isSome = true := fun name => by
        rw [sortNames, ComparatorSort.mem_sortBy, (source.listed path mode entries hnode).2]
      refine ⟨⟨mode, entries, hnode, fun hroot hmem => ?_⟩, ((copied_write hnode s).trans hcopied).congr fun q x hx => ?_⟩
      · exact hmarker markerName (ComparatorSort.mem_sortBy.mpr hmem) ⟨hroot, rfl⟩
      · constructor
        · rintro (rfl | ⟨name, _, hprefix⟩)
          · exact List.prefix_rfl
          · exact (List.prefix_append path [name]).trans hprefix
        · rintro ⟨rest, rfl⟩
          cases rest with
          | nil => exact Or.inl (List.append_nil path)
          | cons name rest =>
            refine Or.inr ⟨name, (hnames name).mpr ?_, ⟨rest, by simp⟩⟩
            cases rest with
            | nil =>
              rw [hx]
              rfl
            | cons name' rest =>
              have happend : path ++ name :: name' :: rest = (path ++ [name]) ++ name' :: rest := by simp
              rw [happend] at hx
              obtain ⟨_, _, hdir⟩ := directory_above_node
                (by rw [hx]; rfl : (source.node ((path ++ [name]) ++ name' :: rest)).isSome = true)
              rw [hdir]
              rfl
    · exact absurd h (by simp)

/-- What is staged: the copy of every node of the source, which has no marker, and the marker. -/
theorem staged_spec {allocated : AllocatedBundledSkill} {disk : SkillDisk} (h : stagedDisk env allocated = .ok disk) :
    (∃ mode entries, allocated.source.node [] = some (.directory mode entries) ∧ markerName ∉ entries) ∧
      allocated.source.node [markerName] = none ∧
      disk [markerName] = some (.file 0o600 (ownershipMarkerContent env allocated.key allocated.revision)) ∧
      ∀ path, path ≠ [markerName] → disk path = (allocated.source.node path).map copiedShape := by
  obtain ⟨copied, hcopy, h⟩ := Checks.bind_eq_ok.mp h
  obtain ⟨name, _, h⟩ := Checks.bind_eq_ok.mp h
  have hdisk :
      (copied.write [markerName] (.file 0o600 (ownershipMarkerContent env allocated.key allocated.revision))).disk = disk := by
    dsimp only at h
    split at h
    · exact nomatch h
    · exact Except.ok.inj h
  have hcopied : copySanitizedDirectory env allocated.source (maxDepth + 1) [] CopyState.init = .ok copied := by
    unfold copySanitizedSkillTree at hcopy
    split at hcopy
    · exact hcopy
    · exact nomatch hcopy
  obtain ⟨⟨mode, entries, hroot, hmarker⟩, hwritten⟩ := copied_directory hcopied
  have hnone : allocated.source.node ([] ++ [markerName]) = none := by
    rw [← Option.not_isSome_iff_eq_none]
    exact fun hsome => hmarker rfl (((allocated.source.listed [] mode entries hroot).2 markerName).mpr hsome)
  refine ⟨⟨mode, entries, hroot, hmarker rfl⟩, hnone, ?_, fun path hpath => ?_⟩
  · rw [← hdisk]
    exact disk_write_self ..
  · rw [← hdisk, disk_write_of_ne hpath]
    cases hx : allocated.source.node path with
    | some x => exact hwritten.written path x (List.nil_prefix) hx
    | none => exact hwritten.kept path fun _ => hx

/-- The view of a source with its marker is that of its staged copy, when siblings are apart. -/
theorem viewOf_staged {allocated : AllocatedBundledSkill} {staged : SkillTree} (h : stagedDisk env allocated = .ok staged.shapes)
    (hapart : SiblingsApart env allocated.source [markerName]) :
    viewOf env allocated.source (some (markerFile env allocated.key allocated.revision)) platform .normalize_bundled =
      viewOf env staged none platform .enforce_safe := by
  obtain ⟨⟨rootMode, rootEntries, hroot, hfresh⟩, hnoMarker, hmarker, hcopied⟩ := staged_spec h
  have hsafe : ∀ mode, refusesMode .enforce_safe platform (normalizedBundledFileMode mode) = false := fun mode => by
    unfold normalizedBundledFileMode
    cases platform <;> split <;> rfl
  have hshape : ∀ {path : List FileName} {x : NodeShape}, staged.shapes path = some x → ∃ y, staged.node path = some y ∧
      y.shape = x :=
    fun hx => Option.map_eq_some_iff.mp hx
  have hsome : ∀ path, (staged.node path).isSome = true ↔ (allocated.source.node path).isSome = true ∨ path = [markerName] :=
    fun path => by
    have hshapes : (staged.node path).isSome = (staged.shapes path).isSome := by simp [SkillTree.shapes]
    rw [hshapes]
    by_cases hpath : path = [markerName]
    · rw [hpath, hmarker]
      simp
    · rw [hcopied path hpath]
      simp [hpath]
  funext path
  by_cases hpath : path = [markerName]
  · subst hpath
    obtain ⟨y, hy, hshape⟩ := hshape hmarker
    cases y with
    | file mode content =>
      obtain ⟨rfl, rfl⟩ := NodeShape.file.inj hshape
      have hadded : (some (markerFile env allocated.key allocated.revision)).filter (fun file => [markerName] == [file.name]) =
          some (markerFile env allocated.key allocated.revision) := by
        rw [Option.filter_some]
        exact if_pos (beq_self_eq_true _)
      unfold viewOf
      rw [hnoMarker, hy]
      dsimp only
      have hkeep : normalizedBundledFileMode 0o600 = 0o600 := by decide
      have hrefused := hsafe 0o600
      rw [hkeep] at hrefused
      have hview : fileView .normalize_bundled platform 0o600 (ownershipMarkerContent env allocated.key allocated.revision) =
          fileView .enforce_safe platform 0o600 (ownershipMarkerContent env allocated.key allocated.revision) := by
        simp only [fileView, modeUnder, if_true, hkeep, if_neg (show SkillTreeModePolicy.enforce_safe ≠ .normalize_bundled by decide),
          hrefused]
        rfl
      rw [hadded, Option.map_some]
      exact congrArg some hview
    | directory mode names => exact absurd hshape (by simp [SkillNode.shape])
    | symlink => exact absurd hshape (by simp [SkillNode.shape])
    | special => exact absurd hshape (by simp [SkillNode.shape])
  · have hdisk := hcopied path hpath
    unfold viewOf
    cases hx : allocated.source.node path with
    | none =>
      have hnone : staged.node path = none := by
        rw [hx] at hdisk
        exact Option.map_eq_none_iff.mp hdisk
      have hne : (path == [(markerFile env allocated.key allocated.revision).name]) = false := beq_eq_false_iff_ne.mpr hpath
      rw [hnone]
      simp [Option.filter_some, hne]
    | some x =>
      rw [hx, Option.map_some] at hdisk
      obtain ⟨y, hy, hshape⟩ := hshape hdisk
      rw [hy]
      cases x <;> cases y <;>
        simp only [copiedShape, SkillNode.shape, reduceCtorEq, NodeShape.file.injEq, NodeShape.directory.injEq] at hshape
      · obtain ⟨rfl, rfl⟩ := hshape
        rename_i mode content
        simp only [fileView, modeUnder, if_true, if_neg (show SkillTreeModePolicy.enforce_safe ≠ .normalize_bundled by decide), hsafe]
        rfl
      · rename_i mode names mode' names'
        subst hshape
        have hperm : (names ++ if path = [] then [markerName] else []).Perm names' := by
          refine perm_names hx hy ?_ fun name => ?_
          · by_cases hr : path = []
            · subst hr
              obtain ⟨rfl, rfl⟩ := SkillNode.directory.inj (Option.some.inj (hx.symm.trans hroot))
              rw [if_pos rfl, ← List.concat_eq_append, List.nodup_concat]
              exact ⟨hfresh, (allocated.source.listed [] _ _ hx).1⟩
            · rw [if_neg hr, List.append_nil]
              exact (allocated.source.listed path _ _ hx).1
          · rw [hsome]
            refine or_congr Iff.rfl ?_
            by_cases hr : path = []
            · simp [hr]
            · rw [if_neg hr]
              refine iff_of_false (fun h => hr ?_) List.not_mem_nil
              exact (List.append_eq_singleton_iff.mp h).elim And.left fun h => absurd h.2 (List.cons_ne_nil _ _)
        have hrefused : refusesMode .enforce_safe platform 0o700 = false := by cases platform <;> rfl
        dsimp only
        rw [hrefused, names_added, names_added]
        congr 2
        rw [Option.map_none, Option.toList_none, ite_self, List.append_nil]
        exact ComparatorSort.sortBy_eq_of_perm (transCmp_names env) (hapart path _ names hx) hperm
      · rfl
      · rfl

/-- A source with its marker, where the walk has not met the marker twice. -/
theorem fresh_of_walk {tree : SkillTree} {file : VirtualRootFile} {policy : SkillTreeModePolicy} {s : HashState}
    (h : walkView env (viewOf env tree (some file) platform policy) (maxDepth + 1) [] HashState.init = .ok s) :
    tree.node [file.name] = none := by
  obtain ⟨mode, entries, hroot⟩ := root_of_walk h
  obtain ⟨refused, names, hview, hfolds, _⟩ := (walkView_ok h).1
  obtain ⟨mode', entries', hnode, rfl⟩ := directory_of_viewOf hview
  obtain ⟨rfl, rfl⟩ := SkillNode.directory.inj (Option.some.inj (hroot.symm.trans hnode))
  have hnodup := (ComparatorSort.perm_sortBy _ _).nodup_iff.mp (List.Nodup.of_map _ hfolds)
  rw [if_pos rfl, Option.map_some, Option.toList_some, ← List.concat_eq_append, List.nodup_concat] at hnodup
  have hnot : ¬ (tree.node ([] ++ [file.name])).isSome = true := fun hsome =>
    hnodup.1 (((tree.listed [] mode entries hroot).2 file.name).mpr hsome)
  exact Option.not_isSome_iff_eq_none.mp hnot

/-- A source with the digest of a staged copy has the contents of the source that was staged. -/
theorem contents_of_staged {allocated : AllocatedBundledSkill} {staged source' : SkillTree} {d : δ}
    (h : stagedDisk env allocated = .ok staged.shapes) (hd : digestDirectory env staged platform = .ok d)
    (hd' : digestBundledFinalTree env source' allocated.key allocated.revision platform = .ok d) :
    source'.contents .normalize_bundled = allocated.source.contents .normalize_bundled := by
  obtain ⟨⟨rootMode, rootEntries, hroot, _⟩, hnoMarker, _, hcopied⟩ := staged_spec h
  obtain ⟨s, hs, hds⟩ := digest_eq_ok.mp hd
  obtain ⟨s', hs', hds'⟩ := digest_eq_ok.mp hd'
  have hrecords := records_of_same_digest hs' hs (hds'.trans hds.symm)
  funext path
  by_cases hmarker : path = [markerName]
  · subst hmarker
    have hfresh : source'.node [markerName] = none := fresh_of_walk hs'
    rw [SkillTree.contents, SkillTree.contents, hnoMarker, hfresh]
  · cases path with
    | nil =>
      obtain ⟨mode', names', hroot'⟩ := root_of_walk hs'
      rw [SkillTree.contents, SkillTree.contents, hroot, hroot']
      rfl
    | cons name path =>
      have hfresh : ∀ file, some (markerFile env allocated.key allocated.revision) = some file → name :: path ≠ [file.name] := by
        rintro _ ⟨⟩
        exact hmarker
      have hnone : ∀ file : VirtualRootFile, none = some file → name :: path ≠ [file.name] := fun _ h => nomatch h
      have hcontents :=
        contents_of_same_records (listed_viewOf (root_of_walk hs')) (listed_viewOf (root_of_walk hs)) (walkView_ok hs').1
        (walkView_ok hs).1 hrecords (List.cons_ne_nil name path)
      rw [content_viewOf env platform hfresh, content_viewOf env platform hnone] at hcontents
      rw [hcontents, SkillTree.contents, SkillTree.contents]
      -- the staged copy has the source's contents
      have hdisk := hcopied (name :: path) hmarker
      cases hx : allocated.source.node (name :: path) with
      | none =>
        rw [hx] at hdisk
        rw [(Option.map_eq_none_iff.mp hdisk : staged.node (name :: path) = none)]
        rfl
      | some x =>
        rw [hx, Option.map_some] at hdisk
        obtain ⟨y, hy, hshape⟩ := Option.map_eq_some_iff.mp hdisk
        rw [hy]
        cases x <;> cases y <;>
          simp only [copiedShape, SkillNode.shape, reduceCtorEq, NodeShape.file.injEq, NodeShape.directory.injEq] at hshape
        · obtain ⟨rfl, rfl⟩ := hshape
          rfl
        · rfl
        · rfl
        · rfl

/-- The names of the staged copy are those of the source and the marker, so siblings are apart in both or in none. -/
theorem apart_of_staged {allocated : AllocatedBundledSkill} {staged : SkillTree} (h : stagedDisk env allocated = .ok staged.shapes)
    (hapart : SiblingsApart env staged []) : SiblingsApart env allocated.source [markerName] := by
  obtain ⟨_, hnoMarker, hmarker, hcopied⟩ := staged_spec h
  have hsome : ∀ path, (allocated.source.node path).isSome = true ∨ path = [markerName] → (staged.node path).isSome = true := by
    intro path hpath
    have hshapes : (staged.node path).isSome = (staged.shapes path).isSome := by simp [SkillTree.shapes]
    rw [hshapes]
    by_cases hm : path = [markerName]
    · rw [hm, hmarker]
      rfl
    · rw [hcopied path hm, Option.isSome_map]
      exact hpath.resolve_right hm
  intro path mode names hnode
  have hne : path ≠ [markerName] := fun hm => nomatch (hm ▸ hnode).symm.trans hnoMarker
  have hdisk := hcopied path hne
  rw [hnode, Option.map_some] at hdisk
  obtain ⟨y, hy, hshape⟩ := Option.map_eq_some_iff.mp hdisk
  cases y with
  | directory mode' names' =>
    have hmem : ∀ a ∈ names ++ (if path = [] then [markerName] else []), a ∈ names' ++ if path = [] then [] else [] := by
      intro a ha
      rw [ite_self, List.append_nil, (staged.listed path mode' names' hy).2]
      rcases List.mem_append.mp ha with ha | ha
      · exact hsome _ (Or.inl (((allocated.source.listed path mode names hnode).2 a).mp ha))
      · split at ha
        · rename_i hr
          rw [List.mem_singleton.mp ha, hr]
          exact hsome _ (Or.inr rfl)
        · exact absurd ha List.not_mem_nil
    exact fun a ha b hb => hapart path mode' names' hy a (hmem a ha) b (hmem b hb)
  | file mode content => exact nomatch hshape
  | symlink => exact nomatch hshape
  | special => exact nomatch hshape

end SkillDigestAux

open SkillDigestAux

/-- For every runtime and platform: a tree that has a digest is identified by it, in every order of `readdir`, exactly when no two
names of a directory tie in the locale; and a bundled Skill that stages has the same digest before and after exactly when that
holds of its source with the marker. -/
theorem skill_digests_identify_iff (env : SkillRuntime δ) (platform : NodePlatform) :
    (∀ tree, (HasDigest env platform tree → DigestIdentifies env platform tree) ↔
        (HasDigest env platform tree → SiblingsApart env tree [])) ∧
      ∀ allocated, (Stages env platform allocated → DigestsAgree env platform allocated) ↔
        (Stages env platform allocated → SiblingsApart env allocated.source [markerName]) := by
  refine ⟨fun tree => ?_, fun allocated => ?_⟩
  · constructor
    · intro h hdigest
      exact apart_of_ordered hdigest (h hdigest).ordered
    · intro h hdigest
      refine ⟨fun tree' hsame => ordered_of_apart (h hdigest) hsame, fun tree' hsame => ?_⟩
      obtain ⟨d, hd⟩ := hdigest
      exact contents_of_same_digest hd (hsame.trans hd)
  · constructor
    · intro h hstages
      obtain ⟨staged, hstaged, hdigest⟩ := hstages
      have hagree := (h ⟨staged, hstaged, hdigest⟩).agree
      refine apart_of_staged hstaged (apart_of_ordered hdigest fun staged' hsame => ?_)
      have hstaged' : stagedDisk env allocated = .ok staged'.shapes := by rw [hstaged, hsame]
      rw [← hagree staged' _ hstaged' rfl, hagree staged _ hstaged rfl]
    · intro h hstages
      have hapart := h hstages
      refine ⟨fun staged source' hstaged hsame => ?_, fun staged source' d hstaged hd hd' => contents_of_staged hstaged hd hd'⟩
      rw [digestBundledFinalTree, digestDirectory, hashDirectoryRecursive_eq, hashDirectoryRecursive_eq,
        viewOf_sameTree hsame hapart (some (markerFile env allocated.key allocated.revision)) rfl .normalize_bundled,
        viewOf_staged hstaged hapart]

/-- A directory of empty files. -/
def flatTree (names : List FileName) (hnodup : names.Nodup) : SkillTree where
  node
    | [] => some (.directory 0o700 names)
    | [name] => if name ∈ names then some (.file 0o600 []) else none
    | _ => none
  listed path mode entries h := by
    match path with
    | [] =>
      obtain ⟨_, rfl⟩ := SkillNode.directory.inj (Option.some.inj h)
      exact ⟨hnodup, fun name => by simp⟩
    | [name] =>
      dsimp only at h
      split at h
      · exact nomatch h
      · exact nomatch h
    | _ :: _ :: _ => exact nomatch h
  parent path name h := by
    match path with
    | [] => exact ⟨0o700, names, rfl⟩
    | [_] => exact absurd h (by simp)
    | _ :: _ :: _ => exact absurd h (by simp)

/-- Tables that leave every text alone do not look across a slash. -/
theorem unchanged_slash (a b : List Char) : a ++ '/' :: b = a ++ '/' :: b := rfl

/-- A runtime whose collation ignores soft hyphens, as that of the default locale does, and whose hash is the stream itself. -/
def ignoringRuntime : SkillRuntime (List UInt8) where
  unicode :=
    { nfc := fun t => t
      nfkc := fun t => t
      toLowerCase := fun t => t
      toUpperCase := fun t => t
      nfc_slash := unchanged_slash
      nfkc_slash := unchanged_slash
      toLowerCase_slash := unchanged_slash
      toUpperCase_slash := unchanged_slash }
  collation :=
    { localeCompare := fun a b =>
        compare (String.ofList (a.toList.filter (· ≠ '\u00ad'))) (String.ofList (b.toList.filter (· ≠ '\u00ad')))
      trans := ComparatorSort.transCmp_on (inferInstance : Std.TransCmp (compare : String → String → Ordering))
        fun a : String => String.ofList (a.toList.filter (· ≠ '\u00ad')) }
  sha256 := Function.Embedding.refl _
  stringify := fun t => t
  validateSkillManifest := fun _ name => .ok name

/-- A name, and the same with a soft hyphen. -/
def tyingNames : List FileName :=
  [⟨['a'], by decide, by decide, by decide⟩, ⟨['a', '\u00ad'], by decide, by decide, by decide⟩]

/-- Two files whose names differ in a soft hyphen are hashed in the order of `readdir`. -/
theorem tying_names_hashed_in_readdir_order : ¬ ∀ (env : SkillRuntime (List UInt8)) platform, SkillDigestsSound env platform := by
  intro h
  have hdigest : HasDigest ignoringRuntime .posix (flatTree tyingNames (by decide)) := ⟨_, rfl⟩
  have hordered := ((h ignoringRuntime .posix).trees _ hdigest).ordered (flatTree tyingNames.reverse (by decide)) (by
    funext path
    match path with
    | [] => rfl
    | [name] => simp [SkillTree.shapes, flatTree]
    | _ :: _ :: _ => rfl)
  exact absurd hordered (by decide)

end FirstTree
