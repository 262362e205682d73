import FirstTree.Client.SkillDigest

/-!
# What the digest of a Skill tree reads

The walk reads a tree only through its view: for each path the node, its mode already checked or not, and the names of a directory
in the order of the locale. A walk that succeeds hashes the records of the view, the bytes determine the records, and the records
determine the nodes and the order of the names.
-/

namespace FirstTree

open SelfDelimiting (utf8 decimal)

namespace SkillDigest

open SkillPaths

variable {δ : Type} {env : SkillRuntime δ}

/-! ## Views -/

/-- What the walk reads of a node: whether its mode is refused, the names in order, the mode of a file under the policy. -/
inductive ViewNode where
  | directory (refused : Bool) (names : List FileName)
  | file (refused : Bool) (mode : Nat) (content : List UInt8)
  | symlink
  | special

/-- Whether a mode is refused under a policy. -/
def refusesMode (policy : SkillTreeModePolicy) (platform : NodePlatform) (mode : Nat) : Bool :=
  decide (policy = .enforce_safe) && hasUnsafeManagedWriteMode mode platform

/-- A mode is refused where the policy asks for safe modes and it is none. -/
theorem refusesMode_iff {policy : SkillTreeModePolicy} {platform : NodePlatform} {mode : Nat} :
    refusesMode policy platform mode = true ↔ policy = .enforce_safe ∧ hasUnsafeManagedWriteMode mode platform = true := by
  simp [refusesMode]

/-- The view of a file. -/
def fileView (policy : SkillTreeModePolicy) (platform : NodePlatform) (mode : Nat) (content : List UInt8) : ViewNode :=
  .file (refusesMode policy platform (modeUnder policy mode)) (modeUnder policy mode) content

/-- The view of a tree, with the file that is added to its root. -/
def viewOf (env : SkillRuntime δ) (tree : SkillTree) (virtualRootFile : Option VirtualRootFile) (platform : NodePlatform)
    (policy : SkillTreeModePolicy) (path : List FileName) : Option ViewNode :=
  match tree.node path with
  | some (.directory mode names) =>
    some (.directory (refusesMode policy platform mode)
      (sortNames env (names ++ ((if path = [] then virtualRootFile else none).map (·.name)).toList)))
  | some (.file mode content) => some (fileView policy platform mode content)
  | some .symlink => some .symlink
  | some .special => some .special
  | none => (virtualRootFile.filter fun file => path == [file.name]).map fun file => fileView policy platform file.mode file.content

/-- The step of the walk at one name, on a view. -/
def walkName (walk : List FileName → HashState → Except String HashState) (view : List FileName → Option ViewNode)
    (path : List FileName) (state : HashState) : Except String HashState :=
  match view path with
  | none => .error ("Skill tree entry disappeared while hashing: " ++ String.ofList (relativeText path))
  | some .symlink => .error ("Skill tree symlinks are not allowed: " ++ String.ofList (relativeText path))
  | some (.directory _ _) => walk path { state with hashed := state.hashed ++ directoryRecord path }
  | some .special => .error ("Skill tree special files are not allowed: " ++ String.ofList (relativeText path))
  | some (.file refused mode content) =>
    if refused then
      .error ("Skill tree file has unsafe group/other write permissions: " ++ String.ofList (relativeText path))
    else hashFile path mode content state

/-- The walk on a view. -/
def walkView (env : SkillRuntime δ) (view : List FileName → Option ViewNode) : Nat → List FileName → HashState →
    Except String HashState
  | 0, _, _ => .error ("Skill tree exceeds max directory depth " ++ toString maxDepth)
  | levels + 1, path, state =>
    match view path with
    | some (.directory refused names) =>
      if refused then .error ("Skill tree directory has unsafe group/other write permissions: " ++ directoryText path)
      else
        visitNames env ("Skill tree contains a case-insensitive path collision at " ++ directoryText path)
          (fun name state => walkName (walkView env view levels) view (path ++ [name]) state) [] names state
    | _ => .error ("Skill tree directory is not a directory: " ++ directoryText path)

/-- Two visits that agree on the names agree over them. -/
theorem visitNames_congr {σ : Type} {collision : String} {visit visit' : FileName → σ → Except String σ} {names : List FileName}
    (h : ∀ name ∈ names, ∀ state, visit name state = visit' name state) (seen : List (List Char)) (state : σ) :
    visitNames env collision visit seen names state = visitNames env collision visit' seen names state := by
  induction names generalizing seen state with
  | nil => rfl
  | cons name names ih =>
    simp only [visitNames, h name List.mem_cons_self]
    split
    · rfl
    · split
      · rfl
      · exact ih (fun n hn => h n (List.mem_cons_of_mem _ hn)) _ _

/-- A file hashed under a policy is a file of the view. -/
theorem hash_fileView (policy : SkillTreeModePolicy) (platform : NodePlatform) (path : List FileName) (mode : Nat)
    (content : List UInt8) (state : HashState) :
    (do
      assertManagedTreeModeSafe policy platform (modeUnder policy mode) "file" (String.ofList (relativeText path))
      hashFile path (modeUnder policy mode) content state) =
    if refusesMode policy platform (modeUnder policy mode) then
      .error ("Skill tree file has unsafe group/other write permissions: " ++ String.ofList (relativeText path))
    else hashFile path (modeUnder policy mode) content state := by
  by_cases h : policy = .enforce_safe ∧ hasUnsafeManagedWriteMode (modeUnder policy mode) platform = true
  · rw [assertManagedTreeModeSafe, if_pos h, if_pos (refusesMode_iff.mpr h)]
    rfl
  · rw [assertManagedTreeModeSafe, if_neg h, if_neg fun hr => h (refusesMode_iff.mp hr)]
    rfl

/-- The walk of a tree is the walk of its view. -/
theorem hashDirectoryRecursive_eq (tree : SkillTree) (virtualRootFile : Option VirtualRootFile) (platform : NodePlatform)
    (policy : SkillTreeModePolicy) (levels : Nat) (path : List FileName) (state : HashState) :
    hashDirectoryRecursive env tree virtualRootFile platform policy levels path state =
      walkView env (viewOf env tree virtualRootFile platform policy) levels path state := by
  induction levels generalizing path state with
  | zero => rfl
  | succ levels ih =>
    rw [hashDirectoryRecursive, walkView, viewOf]
    cases hnode : tree.node path with
    | none =>
      cases virtualRootFile.filter fun file => path == [file.name] <;> rfl
    | some node =>
      cases node with
      | file mode content => rfl
      | symlink => rfl
      | special => rfl
      | directory mode entries =>
        dsimp only
        by_cases hmode : policy = .enforce_safe ∧ hasUnsafeManagedWriteMode mode platform = true
        · rw [assertManagedTreeModeSafe, if_pos hmode, if_pos (refusesMode_iff.mpr hmode)]
          rfl
        · rw [assertManagedTreeModeSafe, if_neg hmode, if_neg fun hr => hmode (refusesMode_iff.mp hr)]
          refine visitNames_congr (fun name hname state => ?_) _ _
          obtain ⟨_, hlisted⟩ := tree.listed path mode entries hnode
          rw [sortNames, ComparatorSort.mem_sortBy, List.mem_append] at hname
          unfold walkName viewOf
          cases hvirtual : (if path = [] then virtualRootFile else none).filter fun file =>
              file.name == name && ! entries.contains name with
          | some file =>
            -- the added file stands for a name that the root does not list
            obtain ⟨hfile, hcond⟩ := Option.filter_eq_some_iff.mp hvirtual
            split at hfile
            · rename_i hroot
              subst hroot
              rw [Bool.and_eq_true, beq_iff_eq, Bool.not_eq_true', List.contains_eq_mem, decide_eq_false_iff_not] at hcond
              obtain ⟨rfl, hnot⟩ := hcond
              have hnone : tree.node ([] ++ [file.name]) = none := by
                rw [← Option.not_isSome_iff_eq_none]
                exact fun hsome => hnot ((hlisted file.name).mpr hsome)
              rw [hnone, hfile]
              simp only [List.nil_append, Option.filter_some, beq_self_eq_true, if_true, Option.map_some, fileView]
              exact hash_fileView policy platform _ file.mode file.content state
            · exact nomatch hfile
          | none =>
            cases hchild : tree.node (path ++ [name]) with
            | some child =>
              cases child with
              | file mode content => exact hash_fileView policy platform _ mode content state
              | directory mode names => exact ih _ _
              | symlink => rfl
              | special => rfl
            | none =>
              have hnot : name ∉ entries := fun hmem => by
                have hsome := (hlisted name).mp hmem
                rw [hchild] at hsome
                exact absurd hsome (by decide)
              rcases hname with hname | hname
              · exact absurd hname hnot
              · obtain ⟨file, hfile, rfl⟩ := Option.mem_map.mp (Option.mem_toList.mp hname)
                rw [Option.mem_def.mp hfile, Option.filter_some] at hvirtual
                simp [hnot] at hvirtual

/-! ## Records -/

/-- A record of the stream: a directory, or a file with its execute bits and its content. -/
inductive Record where
  | directory (path : List FileName)
  | file (path : List FileName) (execute : Nat) (content : List UInt8)

/-- The path of a record. -/
def Record.path : Record → List FileName
  | .directory path => path
  | .file path _ _ => path

/-- The bytes of a record. -/
def Record.encode : Record → List UInt8
  | .directory path => directoryRecord path
  | .file path execute content => fileRecord path execute content

/-- No relative path has a NUL. -/
theorem nul_notMem_relativeText (path : List FileName) : '\x00' ∉ relativeText path := by
  induction path with
  | nil => exact List.not_mem_nil
  | cons name path ih =>
    cases path with
    | nil => simpa [relativeText, joinSegments] using name.noNul
    | cons name' path =>
      simp only [relativeText, joinSegments, List.map_cons, List.intercalate_cons_cons, List.mem_append, List.mem_singleton,
        not_or] at ih ⊢
      exact ⟨⟨name.noNul, by decide⟩, ih⟩

/-- A relative path determines its names. -/
theorem relativeText_injective {path path' : List FileName} (h : relativeText path = relativeText path') : path = path' := by
  have hseg : ∀ p : List FileName, ∀ s ∈ p.map (·.text), s ≠ [] ∧ '/' ∉ s := fun p s hs => by
    obtain ⟨name, _, rfl⟩ := List.mem_map.mp hs
    exact ⟨name.filled, name.noSlash⟩
  have htexts := SelfDelimiting.intercalate_injective (hseg path) (hseg path') h
  refine List.map_injective_iff.mpr (fun a b hab => ?_) htexts
  obtain ⟨_, _, _, _⟩ := a
  obtain ⟨_, _, _, _⟩ := b
  exact FileName.mk.injEq .. |>.mpr hab

/-- The bytes of the record of a directory. -/
theorem directoryRecord_eq (path : List FileName) :
    directoryRecord path = utf8 "directory".toList ++ 0 :: (utf8 (relativeText path) ++ 0 :: []) := by
  have hnul : utf8 ['\x00'] = [0] := by decide
  rw [directoryRecord, ← List.singleton_append (x := '\x00'), SelfDelimiting.utf8_append, SelfDelimiting.utf8_append,
    SelfDelimiting.utf8_append, hnul]
  simp

/-- The bytes of the record of a file. -/
theorem fileRecord_eq (path : List FileName) (execute : Nat) (content : List UInt8) :
    fileRecord path execute content = utf8 "file".toList ++ 0 :: (utf8 (relativeText path) ++ 0 :: (utf8 (decimal execute) ++ 0 ::
      (utf8 (decimal content.length) ++ 0 :: (content ++ [0])))) := by
  have hnul : ∀ t : List Char, utf8 ('\x00' :: t) = 0 :: utf8 t := fun t => rfl
  simp only [fileRecord, SelfDelimiting.utf8_append, hnul, List.append_assoc, List.cons_append]
  rfl

/-- A record ends where it says. -/
theorem delimited_encode : SelfDelimiting.Delimited Record.encode := by
  have hkinds : '\x00' ∉ "directory".toList ∧ '\x00' ∉ "file".toList := by decide
  intro r r' x x' h
  cases r with
  | directory path =>
    cases r' with
    | directory path' =>
      simp only [Record.encode, directoryRecord_eq, List.append_assoc, List.cons_append, List.nil_append] at h
      obtain ⟨_, h⟩ := SelfDelimiting.utf8_terminated hkinds.1 hkinds.1 h
      obtain ⟨hpath, h⟩ := SelfDelimiting.utf8_terminated (nul_notMem_relativeText path) (nul_notMem_relativeText path') h
      exact ⟨by rw [relativeText_injective hpath], h⟩
    | file path' execute content =>
      simp only [Record.encode, directoryRecord_eq, fileRecord_eq, List.append_assoc, List.cons_append] at h
      exact absurd (SelfDelimiting.utf8_terminated hkinds.1 hkinds.2 h).1 (by decide)
  | file path execute content =>
    cases r' with
    | directory path' =>
      simp only [Record.encode, directoryRecord_eq, fileRecord_eq, List.append_assoc, List.cons_append] at h
      exact absurd (SelfDelimiting.utf8_terminated hkinds.2 hkinds.1 h).1 (by decide)
    | file path' execute' content' =>
      simp only [Record.encode, fileRecord_eq, List.append_assoc, List.cons_append] at h
      obtain ⟨_, h⟩ := SelfDelimiting.utf8_terminated hkinds.2 hkinds.2 h
      obtain ⟨hpath, h⟩ := SelfDelimiting.utf8_terminated (nul_notMem_relativeText path) (nul_notMem_relativeText path') h
      obtain ⟨hexecute, h⟩ := SelfDelimiting.utf8_terminated (SelfDelimiting.nul_notMem_decimal _)
        (SelfDelimiting.nul_notMem_decimal _) h
      obtain ⟨hlength, h⟩ := SelfDelimiting.utf8_terminated (SelfDelimiting.nul_notMem_decimal _)
        (SelfDelimiting.nul_notMem_decimal _) h
      obtain ⟨hcontent, h⟩ := List.append_inj h (SelfDelimiting.decimal_injective hlength)
      exact ⟨by rw [relativeText_injective hpath, SelfDelimiting.decimal_injective hexecute, hcontent], by simpa using h⟩

/-- No record is empty. -/
theorem encode_ne_nil (r : Record) : r.encode ≠ [] := by
  cases r with
  | directory path =>
    rw [Record.encode, directoryRecord_eq]
    simp
  | file path execute content =>
    rw [Record.encode, fileRecord_eq]
    simp

/-- The record of a node of a view. -/
def recordOf (path : List FileName) : ViewNode → Option Record
  | .directory _ _ => some (.directory path)
  | .file _ mode content => some (.file path (mode &&& 0o111) content)
  | _ => none

/-- The records of the names of a directory, each directory followed by its own. -/
def recordsOfName (below : List FileName → List Record) (view : List FileName → Option ViewNode) (path : List FileName) :
    List Record :=
  match view path with
  | some (.directory _ _) => .directory path :: below path
  | some (.file _ mode content) => [.file path (mode &&& 0o111) content]
  | _ => []

/-- The records below a directory, in the order in which they are hashed. -/
def recordsOf (view : List FileName → Option ViewNode) : Nat → List FileName → List Record
  | 0, _ => []
  | levels + 1, path =>
    match view path with
    | some (.directory _ names) => names.flatMap fun name => recordsOfName (recordsOf view levels) view (path ++ [name])
    | _ => []

/-- A directory that a walk goes through: its names fold to different keys, and each is a file, or a directory the walk goes
through. -/
def Walked (env : SkillRuntime δ) (view : List FileName → Option ViewNode) : Nat → List FileName → Prop
  | 0, _ => False
  | levels + 1, path => ∃ refused names, view path = some (.directory refused names) ∧
      (names.map fun name => foldPortableTeamSkillPath env.unicode name.text).Nodup ∧
      ∀ name ∈ names, (∃ refused mode content, view (path ++ [name]) = some (.file refused mode content)) ∨
        ((∃ refused names, view (path ++ [name]) = some (.directory refused names)) ∧ Walked env view levels (path ++ [name]))

/-- A visit of the names that succeeds: the names fold to different keys, and what each visit establishes holds of the whole. -/
theorem visitNames_ok {σ : Type} {collision : String} {visit : FileName → σ → Except String σ} {Q : FileName → Prop}
    {R : List FileName → σ → σ → Prop} (hnil : ∀ s, R [] s s)
    (hvisit : ∀ name s s', visit name s = .ok s' → Q name ∧ ∀ names s'', R names s' s'' → R (name :: names) s s'')
    {seen : List (List Char)} {names : List FileName} {s s' : σ} (h : visitNames env collision visit seen names s = .ok s') :
    ((names.map fun name => foldPortableTeamSkillPath env.unicode name.text).Nodup ∧
      ∀ name ∈ names, foldPortableTeamSkillPath env.unicode name.text ∉ seen) ∧ (∀ name ∈ names, Q name) ∧ R names s s' := by
  induction names generalizing seen s with
  | nil =>
    obtain rfl := Except.ok.inj h
    exact ⟨⟨List.nodup_nil, fun _ hn => absurd hn List.not_mem_nil⟩, fun _ hn => absurd hn List.not_mem_nil, hnil s⟩
  | cons name names ih =>
    rw [visitNames] at h
    split at h
    · exact nomatch h
    · rename_i hseen
      split at h
      · exact nomatch h
      · rename_i state hstate
        obtain ⟨⟨hnodup, hnot⟩, hQ, hR⟩ := ih h
        obtain ⟨hQname, hRname⟩ := hvisit name s state hstate
        refine ⟨⟨?_, fun n hn hmem => ?_⟩, fun n hn => ?_, hRname names s' hR⟩
        · rw [List.map_cons, List.nodup_cons]
          refine ⟨fun hmem => ?_, hnodup⟩
          obtain ⟨n, hn, hfold⟩ := List.mem_map.mp hmem
          exact hnot n hn (hfold ▸ List.mem_cons_self)
        · rcases List.mem_cons.mp hn with rfl | hn
          · exact hseen (List.contains_iff_mem.mpr hmem)
          · exact hnot n hn (List.mem_cons_of_mem _ hmem)
        · rcases List.mem_cons.mp hn with rfl | hn
          · exact hQname
          · exact hQ n hn

/-- A walk that succeeds goes through its directory and hashes its records. -/
theorem walkView_ok {view : List FileName → Option ViewNode} {levels : Nat} {path : List FileName} {s s' : HashState}
    (h : walkView env view levels path s = .ok s') :
    Walked env view levels path ∧ s'.hashed = s.hashed ++ (recordsOf view levels path).flatMap Record.encode := by
  induction levels generalizing path s s' with
  | zero => exact nomatch h
  | succ levels ih =>
    rw [walkView] at h
    split at h
    · rename_i refused names hnode
      split at h
      · exact nomatch h
      · have hname : ∀ name s s', walkName (walkView env view levels) view (path ++ [name]) s = .ok s' →
            ((∃ refused mode content, view (path ++ [name]) = some (.file refused mode content)) ∨
              ((∃ refused names, view (path ++ [name]) = some (.directory refused names)) ∧
                Walked env view levels (path ++ [name]))) ∧
            s'.hashed = s.hashed ++ (recordsOfName (recordsOf view levels) view (path ++ [name])).flatMap Record.encode := by
          intro name s s' hs
          unfold walkName at hs
          unfold recordsOfName
          split at hs
          · exact nomatch hs
          · exact nomatch hs
          · rename_i refused names hchild
            obtain ⟨hwalked, hhashed⟩ := ih hs
            rw [hchild, hhashed]
            refine ⟨Or.inr ⟨⟨refused, names, rfl⟩, hwalked⟩, ?_⟩
            simp only [List.flatMap_cons, Record.encode, List.append_assoc]
          · exact nomatch hs
          · rename_i refused mode content hchild
            split at hs
            · exact nomatch hs
            · rw [hashFile] at hs
              split at hs
              · exact nomatch hs
              · obtain rfl := Except.ok.inj hs
                rw [hchild]
                refine ⟨Or.inl ⟨refused, mode, content, rfl⟩, ?_⟩
                simp only [List.flatMap_cons, List.flatMap_nil, List.append_nil, Record.encode]
        obtain ⟨⟨hnodup, _⟩, hall, hhashed⟩ := visitNames_ok
          (R := fun names s s' => s'.hashed = s.hashed ++
            (names.flatMap fun name => recordsOfName (recordsOf view levels) view (path ++ [name])).flatMap Record.encode)
          (fun s => by simp) (fun name s s' hs => ⟨(hname name s s' hs).1, fun names s'' hrest => by
            rw [hrest, (hname name s s' hs).2, List.flatMap_cons, List.flatMap_append, List.append_assoc]⟩) h
        refine ⟨⟨refused, names, hnode, hnodup, hall⟩, ?_⟩
        rw [hhashed, recordsOf, hnode]
    · exact nomatch h

/-! ## Reading a view back from its records -/

/-- What holds above every node, and makes a node of what it holds of, holds of every path above a node. -/
theorem above {S D : List FileName → Prop} (hparent : ∀ path name, S (path ++ [name]) → D path) (hnode : ∀ path, D path → S path)
    {path : List FileName} {name : FileName} {rest : List FileName} (h : S (path ++ name :: rest)) : D path := by
  induction rest using List.reverseRecOn with
  | nil => exact hparent path name h
  | append_singleton rest last ih =>
    have happend : path ++ name :: (rest ++ [last]) = (path ++ name :: rest) ++ [last] := by simp
    rw [happend] at h
    exact ih (hnode _ (hparent _ last h))

/-- A view in which a directory lists what is below it, and nothing is outside a directory. -/
structure Listed (view : List FileName → Option ViewNode) : Prop where
  names : ∀ path refused names, view path = some (.directory refused names) →
    ∀ name, name ∈ names ↔ (view (path ++ [name])).isSome = true
  parent : ∀ path name, (view (path ++ [name])).isSome = true → ∃ refused names, view path = some (.directory refused names)

/-- The content of a node, as the records have it. -/
inductive NodeContent where
  | directory
  | file (execute : Nat) (content : List UInt8)
  | symlink
  | special

/-- The content of a node of a view. -/
def ViewNode.content : ViewNode → NodeContent
  | .directory _ _ => .directory
  | .file _ mode content => .file (mode &&& 0o111) content
  | .symlink => .symlink
  | .special => .special

section Views

variable {view view' : List FileName → Option ViewNode} {levels : Nat} {path : List FileName}

/-- What is above a node is a directory. -/
theorem directory_above (hl : Listed view) {name : FileName} {rest : List FileName}
    (h : (view (path ++ name :: rest)).isSome = true) : ∃ refused names, view path = some (.directory refused names) :=
  above (S := fun path => (view path).isSome = true) hl.parent (fun path => by
    rintro ⟨refused, names, hdir⟩
    rw [hdir]
    rfl) h

/-- The path of a record is that of its node. -/
theorem path_recordOf {x : ViewNode} {r : Record} (h : recordOf path x = some r) : r.path = path := by
  cases x with
  | directory refused names =>
    obtain rfl := Option.some.inj h
    rfl
  | file refused mode content =>
    obtain rfl := Option.some.inj h
    rfl
  | symlink => exact nomatch h
  | special => exact nomatch h

/-- Nodes with the same record have the same content. -/
theorem content_of_recordOf {x x' : ViewNode} {r : Record} (h : recordOf path x = some r) (h' : recordOf path x' = some r) :
    x.content = x'.content := by
  cases x <;> cases x' <;> simp_all [recordOf, ViewNode.content]
  · exact absurd (h.trans h'.symm) (by simp)
  · exact absurd (h.trans h'.symm) (by simp)
  · have h := h.trans h'.symm
    simp only [Record.file.injEq, true_and] at h
    exact h

/-- Every record is that of a node below the directory. -/
theorem node_of_mem_recordsOf {r : Record} (h : r ∈ recordsOf view levels path) :
    ∃ name rest x, view (path ++ name :: rest) = some x ∧ recordOf (path ++ name :: rest) x = some r := by
  induction levels generalizing path with
  | zero => exact absurd h List.not_mem_nil
  | succ levels ih =>
    rw [recordsOf] at h
    split at h
    · obtain ⟨name, _, hr⟩ := List.mem_flatMap.mp h
      unfold recordsOfName at hr
      split at hr
      · rename_i refused names hchild
        rcases List.mem_cons.mp hr with rfl | hr
        · exact ⟨name, [], _, hchild, rfl⟩
        · obtain ⟨name', rest, x, hx, hrec⟩ := ih hr
          rw [List.append_assoc] at hx hrec
          exact ⟨name, name' :: rest, x, hx, hrec⟩
      · rename_i refused mode content hchild
        obtain rfl := List.mem_singleton.mp hr
        exact ⟨name, [], _, hchild, rfl⟩
      · exact absurd hr List.not_mem_nil
    · exact absurd h List.not_mem_nil

/-- Every node below a directory that is walked through has its record. -/
theorem mem_recordsOf_of_node (hl : Listed view) (hw : Walked env view levels path) {name : FileName} {rest : List FileName}
    {x : ViewNode} (hx : view (path ++ name :: rest) = some x) :
    ∃ r, recordOf (path ++ name :: rest) x = some r ∧ r ∈ recordsOf view levels path := by
  induction levels generalizing path name rest with
  | zero => exact absurd hw id
  | succ levels ih =>
    obtain ⟨refused, names, hdir, _, hnames⟩ := hw
    rw [recordsOf, hdir]
    cases rest with
    | nil =>
      have hmem := (hl.names path refused names hdir name).mpr (by rw [hx]; rfl)
      rcases hnames name hmem with ⟨refused', mode, content, hfile⟩ | ⟨⟨refused', names', hchild⟩, _⟩
      · obtain rfl := Option.some.inj (hx.symm.trans hfile)
        exact ⟨_, rfl, List.mem_flatMap.mpr ⟨name, hmem, by rw [recordsOfName, hfile]; exact List.mem_singleton.mpr rfl⟩⟩
      · obtain rfl := Option.some.inj (hx.symm.trans hchild)
        exact ⟨_, rfl, List.mem_flatMap.mpr ⟨name, hmem, by rw [recordsOfName, hchild]; exact List.mem_cons_self⟩⟩
    | cons name' rest =>
      have happend : path ++ name :: name' :: rest = (path ++ [name]) ++ name' :: rest := by simp
      rw [happend] at hx ⊢
      obtain ⟨refused', names', hchild⟩ :=
        directory_above hl (by rw [hx]; rfl : (view ((path ++ [name]) ++ name' :: rest)).isSome = true)
      have hmem := (hl.names path refused names hdir name).mpr (by rw [hchild]; rfl)
      rcases hnames name hmem with ⟨refused'', mode, content, hfile⟩ | ⟨_, hbelow⟩
      · exact nomatch hfile.symm.trans hchild
      · obtain ⟨r, hr, hin⟩ := ih hbelow hx
        refine ⟨r, hr, List.mem_flatMap.mpr ⟨name, hmem, ?_⟩⟩
        rw [recordsOfName, hchild]
        exact List.mem_cons_of_mem _ hin

/-- A node of a walked view is a node of every view with the same records. -/
theorem node_of_same_records (hl : Listed view) (hw : Walked env view levels []) {levels' : Nat}
    (h : recordsOf view levels [] = recordsOf view' levels' []) {x : ViewNode} (hpath : path ≠ []) (hx : view path = some x) :
    ∃ x', view' path = some x' ∧ x.content = x'.content := by
  cases path with
  | nil => exact absurd rfl hpath
  | cons name rest =>
    have hx : view ([] ++ name :: rest) = some x := hx
    obtain ⟨r, hr, hmem⟩ := mem_recordsOf_of_node hl hw hx
    rw [h] at hmem
    obtain ⟨name', rest', x', hx', hr'⟩ := node_of_mem_recordsOf hmem
    have hsame : name :: rest = [] ++ name' :: rest' := (path_recordOf hr).symm.trans (path_recordOf hr')
    rw [← hsame] at hx' hr'
    exact ⟨x', hx', content_of_recordOf hr hr'⟩

/-- Walked views with the same records have the same contents. -/
theorem contents_of_same_records (hl : Listed view) (hl' : Listed view') {levels' : Nat} (hw : Walked env view levels [])
    (hw' : Walked env view' levels' []) (h : recordsOf view levels [] = recordsOf view' levels' []) (hpath : path ≠ []) :
    (view path).map ViewNode.content = (view' path).map ViewNode.content := by
  cases hx : view path with
  | some x =>
    obtain ⟨x', hx', hcontent⟩ := node_of_same_records hl hw h hpath hx
    rw [hx', Option.map_some, Option.map_some, hcontent]
  | none =>
    cases hx' : view' path with
    | none => rfl
    | some x' =>
      obtain ⟨x, hsome, _⟩ := node_of_same_records hl' hw' h.symm hpath hx'
      exact nomatch hx.symm.trans hsome

/-! ## Reading the order of the names back -/

/-- The name a record adds to a directory. -/
def childOf (path : List FileName) (r : Record) : Option FileName := if r.path.dropLast = path then r.path.getLast? else none

/-- The record of a child. -/
theorem childOf_child {name : FileName} {r : Record} (h : r.path = path ++ [name]) : childOf path r = some name := by
  rw [childOf, h, List.dropLast_concat, if_pos rfl, List.getLast?_concat]

/-- The record of a node that is below a child, or beside the directory. -/
theorem childOf_other {name : FileName} {rest : List FileName} {r : Record} {dir : List FileName} (h : r.path = path ++ name :: rest)
    (hne : dir ≠ path ++ (name :: rest).dropLast) : childOf dir r = none := by
  rw [childOf, h, List.dropLast_append_of_ne_nil (List.cons_ne_nil name rest), if_neg (Ne.symm hne)]

/-- Only one element of a list without repetitions contributes. -/
theorem flatMap_of_only {α β : Type} {f : α → List β} {a : α} {l : List α} (hnodup : l.Nodup) (ha : a ∈ l)
    (h : ∀ b ∈ l, b ≠ a → f b = []) : l.flatMap f = f a := by
  induction l with
  | nil => exact absurd ha List.not_mem_nil
  | cons b l ih =>
    rw [List.nodup_cons] at hnodup
    rw [List.flatMap_cons]
    rcases List.mem_cons.mp ha with rfl | ha
    · have hrest : l.flatMap f = [] := List.flatMap_eq_nil_iff.mpr fun c hc =>
        h c (List.mem_cons_of_mem _ hc) fun hca => hnodup.1 (hca ▸ hc)
      rw [hrest, List.append_nil]
    · rw [h b List.mem_cons_self fun hba => hnodup.1 (hba ▸ ha), List.nil_append]
      exact ih hnodup.2 ha fun c hc => h c (List.mem_cons_of_mem _ hc)

/-- The names of a directory, in order, are those its records add. -/
theorem names_of_records (hl : Listed view) (hw : Walked env view levels path) {dir : List FileName} {refused : Bool}
    {names : List FileName} (hdir : view (path ++ dir) = some (.directory refused names)) :
    (recordsOf view levels path).filterMap (childOf (path ++ dir)) = names := by
  induction levels generalizing path dir with
  | zero => exact absurd hw id
  | succ levels ih =>
    obtain ⟨refused', names', hroot, hfolds, hnames⟩ := hw
    have hbelow : ∀ {name : FileName} {r : Record}, r ∈ recordsOf view levels (path ++ [name]) →
        ∃ name' rest, r.path = path ++ name :: name' :: rest := fun {name r} hr => by
      obtain ⟨name', rest, x, _, hrec⟩ := node_of_mem_recordsOf hr
      exact ⟨name', rest, by rw [path_recordOf hrec, List.append_assoc]; rfl⟩
    rw [recordsOf, hroot]
    dsimp only
    rw [List.filterMap_flatMap]
    cases dir with
    | nil =>
      rw [List.append_nil] at hdir ⊢
      obtain ⟨rfl, rfl⟩ := ViewNode.directory.inj (Option.some.inj (hroot.symm.trans hdir))
      have hone : ∀ name ∈ names',
          (recordsOfName (recordsOf view levels) view (path ++ [name])).filterMap (childOf path) = [name] := by
        intro name hname
        rcases hnames name hname with ⟨r, mode, content, hfile⟩ | ⟨⟨r, ns, hchild⟩, _⟩
        · rw [recordsOfName, hfile]
          simp only [List.filterMap_cons, List.filterMap_nil, childOf_child (show (Record.file _ _ _).path = path ++ [name] from rfl)]
        · rw [recordsOfName, hchild]
          have hnone : (recordsOf view levels (path ++ [name])).filterMap (childOf path) = [] := by
            rw [List.filterMap_eq_nil_iff]
            intro record hrecord
            obtain ⟨name', rest, hpath⟩ := hbelow hrecord
            refine childOf_other hpath fun h => ?_
            have hlen := congrArg List.length h
            simp at hlen
          simp only [List.filterMap_cons, childOf_child (show (Record.directory _).path = path ++ [name] from rfl), hnone]
      rw [List.flatMap_congr hone]
      exact List.flatMap_singleton' names'
    | cons name dir =>
      obtain ⟨r, ns, hchild⟩ : ∃ r ns, view (path ++ [name]) = some (.directory r ns) := by
        cases dir with
        | nil => exact ⟨refused, names, hdir⟩
        | cons name' dir =>
          have happend : path ++ name :: name' :: dir = (path ++ [name]) ++ name' :: dir := by simp
          rw [happend] at hdir
          exact directory_above hl (by rw [hdir]; rfl)
      have hmem : name ∈ names' := (hl.names path refused' names' hroot name).mpr (by rw [hchild]; rfl)
      have happend : path ++ name :: dir = (path ++ [name]) ++ dir := by simp
      rw [flatMap_of_only (a := name) (List.Nodup.of_map _ hfolds) hmem]
      · rcases hnames name hmem with ⟨_, _, _, hfile⟩ | ⟨_, hwalked⟩
        · exact nomatch hfile.symm.trans hchild
        · rw [recordsOfName, hchild]
          have hpath : (Record.directory (path ++ [name])).path = path ++ [name] := rfl
          have hown : childOf (path ++ name :: dir) (.directory (path ++ [name])) = none := childOf_other hpath fun h => by
            have hlen := congrArg List.length h
            simp at hlen
          simp only [List.filterMap_cons, hown]
          rw [happend] at hdir ⊢
          exact ih hwalked hdir
      · intro other hother hne
        rw [List.filterMap_eq_nil_iff]
        have hbeside : ∀ (record : Record) (rest : List FileName), record.path = path ++ other :: rest →
            childOf (path ++ name :: dir) record = none := fun record rest hpath => by
          refine childOf_other hpath fun h => ?_
          cases rest with
          | nil =>
            have hlen := congrArg List.length h
            simp at hlen
          | cons name' rest => exact hne (List.cons.inj (List.append_cancel_left h)).1.symm
        intro record hrecord
        unfold recordsOfName at hrecord
        split at hrecord
        · rcases List.mem_cons.mp hrecord with rfl | hrecord
          · exact hbeside _ [] rfl
          · obtain ⟨name', rest, hpath⟩ := hbelow hrecord
            exact hbeside _ _ hpath
        · obtain rfl := List.mem_singleton.mp hrecord
          exact hbeside _ [] rfl
        · exact absurd hrecord List.not_mem_nil

end Views

/-! ## Views of trees -/

section Trees

variable {tree tree' : SkillTree} {virtualRootFile : Option VirtualRootFile} {platform : NodePlatform} {policy : SkillTreeModePolicy}

/-- The directories of a view are those of its tree. -/
theorem directory_of_viewOf {path : List FileName} {refused : Bool} {names : List FileName}
    (h : viewOf env tree virtualRootFile platform policy path = some (.directory refused names)) :
    ∃ mode entries, tree.node path = some (.directory mode entries) ∧
      names = sortNames env (entries ++ ((if path = [] then virtualRootFile else none).map (·.name)).toList) := by
  unfold viewOf at h
  split at h
  · rename_i mode entries hnode
    exact ⟨mode, entries, hnode, (ViewNode.directory.inj (Option.some.inj h)).2.symm⟩
  · exact nomatch h
  · exact nomatch h
  · exact nomatch h
  · obtain ⟨file, _, hfile⟩ := Option.map_eq_some_iff.mp h
    exact nomatch hfile

/-- The nodes of a view are those of its tree and the added file. -/
theorem isSome_viewOf {path : List FileName} : (viewOf env tree virtualRootFile platform policy path).isSome = true ↔
    (tree.node path).isSome = true ∨ ∃ file, virtualRootFile = some file ∧ path = [file.name] := by
  unfold viewOf
  split
  · rename_i h
    simp [h]
  · rename_i h
    simp [h]
  · rename_i h
    simp [h]
  · rename_i h
    simp [h]
  · rename_i h
    cases virtualRootFile with
    | none => simp [h]
    | some file => simp [h, Option.filter_some]

/-- The view of a tree with a directory at its root is listed. -/
theorem listed_viewOf (hroot : ∃ mode names, tree.node [] = some (.directory mode names)) :
    Listed (viewOf env tree virtualRootFile platform policy) := by
  have hdir : ∀ path mode entries, tree.node path = some (.directory mode entries) →
      ∃ refused names, viewOf env tree virtualRootFile platform policy path = some (.directory refused names) := by
    intro path mode entries hnode
    unfold viewOf
    rw [hnode]
    exact ⟨_, _, rfl⟩
  refine ⟨fun path refused names h name => ?_, fun path name h => ?_⟩
  · obtain ⟨mode, entries, hnode, rfl⟩ := directory_of_viewOf h
    rw [sortNames, ComparatorSort.mem_sortBy, List.mem_append, (tree.listed path mode entries hnode).2 name, isSome_viewOf]
    refine or_congr Iff.rfl ?_
    cases virtualRootFile with
    | none => cases path <;> simp
    | some file =>
      cases path with
      | nil => simp
      | cons first path => simp
  · rcases isSome_viewOf.mp h with h | ⟨file, _, hpath⟩
    · obtain ⟨mode, entries, hnode⟩ := tree.parent path name h
      exact hdir path mode entries hnode
    · cases path with
      | nil =>
        obtain ⟨mode, entries, hnode⟩ := hroot
        exact hdir [] mode entries hnode
      | cons first path =>
        have hlen := congrArg List.length hpath
        simp at hlen

/-- A walk of a view that succeeds starts from a directory. -/
theorem root_of_walk {levels : Nat} {s s' : HashState}
    (h : walkView env (viewOf env tree virtualRootFile platform policy) levels [] s = .ok s') :
    ∃ mode names, tree.node [] = some (.directory mode names) := by
  obtain ⟨hw, _⟩ := walkView_ok h
  cases levels with
  | zero => exact absurd hw id
  | succ levels =>
    obtain ⟨_, _, hroot, _⟩ := hw
    obtain ⟨mode, entries, hnode, _⟩ := directory_of_viewOf hroot
    exact ⟨mode, entries, hnode⟩

end Trees

/-- Walks with the same digest hashed the same records. -/
theorem records_of_same_digest {view view' : List FileName → Option ViewNode} {levels : Nat} {s s' : HashState}
    (h : walkView env view levels [] HashState.init = .ok s) (h' : walkView env view' levels [] HashState.init = .ok s')
    (hdigest : env.sha256 s.hashed = env.sha256 s'.hashed) : recordsOf view levels [] = recordsOf view' levels [] := by
  have hhashed := env.sha256.injective hdigest
  rw [(walkView_ok h).2, (walkView_ok h').2] at hhashed
  exact SelfDelimiting.flatMap_injective delimited_encode encode_ne_nil (List.append_cancel_left hhashed)

end SkillDigest

end FirstTree
