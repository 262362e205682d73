import FirstTree.Client.SkillZip
import FirstTree.Lib.Checks
import FirstTree.Server.SkillBundle

/-!
# Bundles that the server admits

A Skill ZIP that the server admits is one that the client installs: its inspection passes as well, and the plan it makes is safe and
portable. The two inspections keep the same state entry by entry; where they differ, in how they find a file that is used as a
directory, the fold of a path begins with the fold of each of its ancestors and a slash.
-/

namespace FirstTree

open SkillPaths Checks

/-- A plan that can be extracted on every supported file system. -/
structure SafePlan (U : Unicode) (plan : List SkillZip.ZipSkillEntry) : Prop where
  /-- Every path that is written is portable. -/
  portable : ∀ e ∈ plan, e.targetPath ≠ [] → getPortableTeamSkillRelativePathError U e.targetPath e.kind = none
  /-- No two paths or ancestors are equal under the folding with different spellings. -/
  spelling : ∀ a ∈ plan, ∀ b ∈ plan, a.targetPath ≠ [] → b.targetPath ≠ [] → ∀ p ∈ candidatesOf a.targetPath,
    ∀ q ∈ candidatesOf b.targetPath, foldPortableTeamSkillPath U p = foldPortableTeamSkillPath U q → p = q
  /-- No two entries are written to one path. -/
  distinct : plan.Pairwise fun a b => a.targetPath ≠ [] → b.targetPath ≠ [] →
    foldPortableTeamSkillPath U a.targetPath ≠ foldPortableTeamSkillPath U b.targetPath
  /-- No file is an ancestor of another path. -/
  tree : ∀ a ∈ plan, ∀ b ∈ plan, a.kind = .file → a.targetPath ≠ [] → b.targetPath ≠ [] →
    a.targetPath ∉ SkillZip.ancestorsOf b.targetPath
  /-- The ownership marker is not written, nor anything below a directory of its name. -/
  marker : ∀ e ∈ plan, e.targetPath ≠ [] → (segmentsOf e.targetPath).headD [] ≠ ownershipMarker
  /-- The manifest is written at the root, once. -/
  manifest : ∃ e, plan.filter (fun e => e.targetPath == "SKILL.md".toList) = [e] ∧ e.kind = .file
  /-- What is not written is the directory of the wrapper. -/
  wrapper : ∀ e ∈ plan, e.targetPath = [] → e.kind = .directory

namespace SkillZipAux

variable {U : Unicode}

/-! ## Paths -/

/-- The fold of a path with a slash in it. -/
theorem fold_slash (U : Unicode) (a b : List Char) :
    foldPortableTeamSkillPath U (a ++ '/' :: b) = foldPortableTeamSkillPath U a ++ '/' :: foldPortableTeamSkillPath U b := by
  simp only [foldPortableTeamSkillPath, U.nfkc_slash, U.toLowerCase_slash, U.toUpperCase_slash, U.nfc_slash]

theorem segmentsOf_ne_nil (path : List Char) : segmentsOf path ≠ [] := List.splitOn_ne_nil '/' path

@[simp] theorem joinSegments_segmentsOf (path : List Char) : joinSegments (segmentsOf path) = path := List.intercalate_splitOn '/'

/-- Segments joined in two parts. -/
theorem joinSegments_append {xs ys : List (List Char)} (hx : xs ≠ []) (hy : ys ≠ []) :
    joinSegments (xs ++ ys) = joinSegments xs ++ '/' :: joinSegments ys := by
  induction xs with
  | nil => exact absurd rfl hx
  | cons x xs ih =>
    by_cases hxs : xs = []
    · subst hxs
      obtain ⟨y, ys, rfl⟩ := List.exists_cons_of_ne_nil hy
      simp [joinSegments]
    · have hne : xs ++ ys ≠ [] := by simp [hxs]
      rw [List.cons_append, joinSegments, List.intercalate_cons_of_ne_nil hne, joinSegments, List.intercalate_cons_of_ne_nil hxs]
      have := ih hxs
      simp only [joinSegments] at this
      rw [this]
      simp only [List.append_assoc, List.cons_append, List.nil_append]
      rfl

/-- A proper ancestor of a path, a slash and the rest are the path. -/
theorem eq_of_mem_ancestorsOf {a path : List Char} (h : a ∈ SkillZip.ancestorsOf path) : ∃ rest, path = a ++ '/' :: rest := by
  obtain ⟨i, hi, rfl⟩ := List.mem_map.1 h
  have hlt : i + 1 < (segmentsOf path).length := by
    have := List.mem_range.1 hi
    omega
  refine ⟨joinSegments ((segmentsOf path).drop (i + 1)), ?_⟩
  rw [← joinSegments_append, List.take_append_drop, joinSegments_segmentsOf]
  · exact List.ne_nil_of_length_pos (by rw [List.length_take]; omega)
  · exact List.ne_nil_of_length_pos (by rw [List.length_drop]; omega)

/-- An entry's path has no empty segment. -/
theorem nil_not_mem_segmentsOf {raw normalized : List Char} (h : checkEntryPath U raw = .ok normalized) :
    [] ∉ segmentsOf normalized := by
  intro hmem
  unfold checkEntryPath at h
  dsimp only at h
  generalize (if raw.getLast? = some '/' then raw.dropLast else raw) = path at h
  split at h
  · exact absurd h (by simp)
  · split at h
    · exact absurd h (by simp)
    · split at h
      · exact absurd h (by simp)
      · rename_i hsegments
        split at h
        · exact absurd h (by simp)
        · obtain rfl := Except.ok.inj h
          exact hsegments (List.any_eq_true.2 ⟨[], hmem, rfl⟩)

/-! ## The pass over the entries -/

/-- What an entry that the server has passed is. -/
structure Visited (U : Unicode) (scan : SkillBundle.Scan) (entry : ZipEntry) (normalized : List Char) (kind : EntryKind) : Prop where
  path : checkEntryPath U entry.fileName = .ok normalized
  count : ¬ maxEntries < scan.entryCount + 1
  unseen : ¬ scan.seenPaths.contains (foldPortableTeamSkillPath U normalized) = true
  plain : ¬ entry.isEncrypted = true
  kindOf : zipEntryKind entry normalized = .ok kind
  empty : ¬ (kind = .directory ∧ entry.uncompressedSize ≠ 0)

/-- The limits a file that the server has passed keeps. -/
structure FileVisited (U : Unicode) (scan : SkillBundle.Scan) (entry : ZipEntry) (normalized : List Char) : Prop where
  files : ¬ maxFiles < scan.fileCount + 1
  total : ¬ maxUncompressedBytes < scan.totalUncompressed + entry.uncompressedSize
  manifest : ¬ (isSkillMarkdown U normalized = true ∧ maxSkillMarkdownBytes < entry.uncompressedSize)

/-- One entry that the server passes. -/
theorem visitEntry_ok {scan scan' : SkillBundle.Scan} {entry : ZipEntry} (h : SkillBundle.visitEntry U scan entry = .ok scan') :
    ∃ normalized kind, Visited U scan entry normalized kind ∧
      (kind = .directory ∧ scan' = { scan with
          seenPaths := foldPortableTeamSkillPath U normalized :: scan.seenPaths
          entries := scan.entries ++ [(normalized, kind)]
          entryCount := scan.entryCount + 1 } ∨
        kind = .file ∧ FileVisited U scan entry normalized ∧ ∃ bytes, scan' = {
          seenPaths := foldPortableTeamSkillPath U normalized :: scan.seenPaths
          entries := scan.entries ++ [(normalized, kind)]
          skillMarkdown := if isSkillMarkdown U normalized then SkillBundle.setMarkdown scan.skillMarkdown normalized bytes
            else scan.skillMarkdown
          entryCount := scan.entryCount + 1
          fileCount := scan.fileCount + 1
          totalUncompressed := scan.totalUncompressed + entry.uncompressedSize }) := by
  simp only [SkillBundle.visitEntry, bind_eq_ok, refuse_eq_ok] at h
  obtain ⟨normalized, hpath, hcount, hunseen, hplain, kind, hkind, hempty, hrest⟩ := h
  refine ⟨normalized, kind, ⟨hpath, hcount, hunseen, hplain, hkind, hempty⟩, ?_⟩
  by_cases hdir : kind = .directory
  · rw [if_pos hdir] at hrest
    exact .inl ⟨hdir, (pure_eq_ok.1 hrest).symm⟩
  · rw [if_neg hdir] at hrest
    simp only [bind_eq_ok, refuse_eq_ok, pure_eq_ok] at hrest
    obtain ⟨hfiles, htotal, hmanifest, bytes, _, hscan⟩ := hrest
    have hfile : kind = .file := by
      cases kind with
      | directory => exact absurd rfl hdir
      | file => rfl
    exact .inr ⟨hfile, ⟨hfiles, htotal, hmanifest⟩, bytes, hscan.symm⟩

/-- The two inspections after the same entries. -/
structure SameScan (U : Unicode) (server : SkillBundle.Scan) (client : SkillZip.Scan) : Prop where
  seen : server.seenPaths = client.seenRawPaths
  entries : server.entries = client.rawEntries.map fun e => (e.normalizedPath, e.kind)
  entryCount : server.entryCount = client.entryCount
  fileCount : server.fileCount = client.fileCount
  total : server.totalUncompressed = client.totalBytes
  markdown : server.skillMarkdown.map Prod.fst = (client.rawEntries.filter (SkillZip.isManifest U)).map (·.normalizedPath)
  paths : ∀ e ∈ client.rawEntries, foldPortableTeamSkillPath U e.normalizedPath ∈ client.seenRawPaths
  segments : ∀ e ∈ client.rawEntries, [] ∉ segmentsOf e.normalizedPath

/-- A manifest whose path is new is added at the end. -/
theorem setMarkdown_new {server : SkillBundle.Scan} {client : SkillZip.Scan} (h : SameScan U server client) {path : List Char}
    {bytes : List UInt8} (hunseen : ¬ server.seenPaths.contains (foldPortableTeamSkillPath U path) = true) :
    SkillBundle.setMarkdown server.skillMarkdown path bytes = server.skillMarkdown ++ [(path, bytes)] := by
  refine if_neg fun hany => ?_
  obtain ⟨e, he, hpath⟩ := List.any_eq_true.1 hany
  have hmem : e.1 ∈ server.skillMarkdown.map Prod.fst := List.mem_map_of_mem he
  rw [h.markdown] at hmem
  obtain ⟨raw, hraw, hnorm⟩ := List.mem_map.1 hmem
  have hseen := h.paths raw (List.mem_filter.1 hraw).1
  rw [hnorm, eq_of_beq hpath, ← h.seen] at hseen
  exact hunseen (List.contains_iff_mem.2 hseen)

/-- The entry that the client adds. -/
def rawOf (entry : ZipEntry) (normalized : List Char) (kind : EntryKind) : SkillZip.RawEntry :=
  { sourcePath := entry.fileName, normalizedPath := normalized, kind := kind, mode := SkillZip.safeZipMode entry kind,
    size := entry.uncompressedSize }

/-- The client passes a directory that the server passes. -/
theorem client_visits_directory {server : SkillBundle.Scan} {client : SkillZip.Scan} (h : SameScan U server client)
    {entry : ZipEntry} {normalized : List Char} (hv : Visited U server entry normalized .directory) :
    SkillZip.visitEntry U client entry = .ok { client with
      seenRawPaths := foldPortableTeamSkillPath U normalized :: client.seenRawPaths
      rawEntries := client.rawEntries ++ [rawOf entry normalized .directory]
      entryCount := client.entryCount + 1 } := by
  have hzero : entry.uncompressedSize = 0 := by
    by_contra hne
    exact hv.empty ⟨rfl, hne⟩
  simp only [SkillZip.visitEntry, bind_eq_ok, refuse_eq_ok]
  refine ⟨normalized, hv.path, ?_, ?_, hv.plain, .directory, hv.kindOf, ?_, hv.empty, ?_⟩
  · rw [← h.entryCount]
    exact hv.count
  · rw [← h.seen]
    exact hv.unseen
  · rw [hzero]
    decide
  · simp [rawOf, pure, Except.pure]

/-- The client passes a file that the server passes. -/
theorem client_visits_file {server : SkillBundle.Scan} {client : SkillZip.Scan} (h : SameScan U server client)
    {entry : ZipEntry} {normalized : List Char} (hv : Visited U server entry normalized .file)
    (hf : FileVisited U server entry normalized) :
    SkillZip.visitEntry U client entry = .ok {
      seenRawPaths := foldPortableTeamSkillPath U normalized :: client.seenRawPaths
      rawEntries := client.rawEntries ++ [rawOf entry normalized .file]
      entryCount := client.entryCount + 1
      fileCount := client.fileCount + 1
      totalBytes := client.totalBytes + entry.uncompressedSize } := by
  have htotal := hf.total
  rw [h.total] at htotal
  have hsize : ¬ maxUncompressedBytes < entry.uncompressedSize := by omega
  have hcheck : SkillZip.checkFile U client normalized entry.uncompressedSize = .ok () := by
    simp only [SkillZip.checkFile, refuse_eq_ok]
    refine ⟨?_, hsize, htotal, ?_⟩
    · rw [← h.fileCount]
      exact hf.files
    · rw [if_neg hf.manifest]
      rfl
  simp only [SkillZip.visitEntry, bind_eq_ok, refuse_eq_ok]
  refine ⟨normalized, hv.path, ?_, ?_, hv.plain, .file, hv.kindOf, ?_, hv.empty, ?_⟩
  · rw [← h.entryCount]
    exact hv.count
  · rw [← h.seen]
    exact hv.unseen
  · have : maxUncompressedBytes ≤ SkillZip.maxSafeSize := by decide
    omega
  · simp only [if_true, bind_eq_ok]
    exact ⟨(), hcheck, rfl⟩

/-- The client passes what the server passes, and the two stay the same. -/
theorem visitEntry_same {server server' : SkillBundle.Scan} {client : SkillZip.Scan} {entry : ZipEntry}
    (h : SameScan U server client) (hstep : SkillBundle.visitEntry U server entry = .ok server') :
    ∃ client', SkillZip.visitEntry U client entry = .ok client' ∧ SameScan U server' client' := by
  obtain ⟨normalized, kind, hv, hcase⟩ := visitEntry_ok hstep
  have hentries : server.entries ++ [(normalized, kind)] =
      (client.rawEntries ++ [rawOf entry normalized kind]).map fun e => (e.normalizedPath, e.kind) := by
    rw [List.map_append, h.entries]
    rfl
  have hpaths : ∀ e ∈ client.rawEntries ++ [rawOf entry normalized kind],
      foldPortableTeamSkillPath U e.normalizedPath ∈ foldPortableTeamSkillPath U normalized :: client.seenRawPaths := by
    intro e he
    rcases List.mem_append.1 he with he | he
    · exact List.mem_cons_of_mem _ (h.paths e he)
    · obtain rfl := List.mem_singleton.1 he
      exact List.mem_cons_self
  have hsegments : ∀ e ∈ client.rawEntries ++ [rawOf entry normalized kind], [] ∉ segmentsOf e.normalizedPath := by
    intro e he
    rcases List.mem_append.1 he with he | he
    · exact h.segments e he
    · obtain rfl := List.mem_singleton.1 he
      exact nil_not_mem_segmentsOf hv.path
  rcases hcase with ⟨rfl, rfl⟩ | ⟨rfl, hf, bytes, rfl⟩
  · refine ⟨_, client_visits_directory h hv, ⟨by simp only [h.seen], hentries, by simp only [h.entryCount], h.fileCount, h.total,
      ?_, hpaths, hsegments⟩⟩
    rw [h.markdown, List.filter_append, List.map_append]
    simp [SkillZip.isManifest, rawOf]
  · refine ⟨_, client_visits_file h hv hf, ⟨by simp only [h.seen], hentries, by simp only [h.entryCount],
      by simp only [h.fileCount], by simp only [h.total], ?_, hpaths, hsegments⟩⟩
    rw [List.filter_append, List.map_append, ← h.markdown]
    by_cases hm : isSkillMarkdown U normalized = true
    · rw [if_pos hm, setMarkdown_new h hv.unseen, List.map_append]
      simp [SkillZip.isManifest, rawOf, hm]
    · rw [if_neg hm]
      simp [SkillZip.isManifest, rawOf, hm]

/-- The two passes over the entries. -/
theorem scan_same {zip : List ZipEntry} {server : SkillBundle.Scan}
    (h : zip.foldlM (SkillBundle.visitEntry U) SkillBundle.Scan.init = .ok server) :
    ∃ client, zip.foldlM (SkillZip.visitEntry U) SkillZip.Scan.init = .ok client ∧ SameScan U server client := by
  have hinit : SameScan U SkillBundle.Scan.init SkillZip.Scan.init :=
    ⟨rfl, rfl, rfl, rfl, rfl, rfl, fun e he => absurd he List.not_mem_nil, fun e he => absurd he List.not_mem_nil⟩
  have hstep : ∀ server client entry server', SameScan U server client → SkillBundle.visitEntry U server (id entry) = .ok server' →
      ∃ client', SkillZip.visitEntry U client entry = .ok client' ∧ SameScan U server' client' :=
    fun _ _ _ _ hR hok => visitEntry_same hR hok
  rw [← List.map_id zip] at h
  exact foldlM_simulation hstep hinit h

/-! ## The plan -/

/-- The two inspections find the same wrapper. -/
theorem findWrapper_same (manifest : SkillZip.RawEntry) (rawEntries : List SkillZip.RawEntry) :
    SkillBundle.findWrapper manifest.normalizedPath (rawEntries.map fun e => (e.normalizedPath, e.kind)) =
      SkillZip.findWrapper manifest rawEntries := by
  simp only [SkillBundle.findWrapper, SkillZip.findWrapper, List.any_map, Function.comp_def]

/-- The entry that the client plans. -/
def zipOf (wrapper : Option (List Char)) (entry : SkillZip.RawEntry) : SkillZip.ZipSkillEntry :=
  { sourcePath := entry.sourcePath, targetPath := SkillZip.targetOf wrapper entry.normalizedPath, kind := entry.kind,
    mode := entry.mode, size := entry.size }

/-- What a path that is extracted has passed. -/
structure Extracted (U : Unicode) (outputs : SkillBundle.Outputs) (path : List Char) (kind : EntryKind)
    (recorded : CanonicalPaths) : Prop where
  portable : getPortableTeamSkillRelativePathError U path kind = none
  marker : ¬ foldPortableTeamSkillPath U ((segmentsOf path).headD []) = foldPortableTeamSkillPath U ownershipMarker
  spelling : recordPortableTeamSkillPath U outputs.canonicalOutputPaths path = .ok recorded
  unused : ¬ (outputs.outputKinds.lookup (foldPortableTeamSkillPath U path)).isSome = true

/-- The outputs with one more path. -/
def outputsWith (U : Unicode) (outputs : SkillBundle.Outputs) (path : List Char) (kind : EntryKind) (recorded : CanonicalPaths) :
    SkillBundle.Outputs :=
  { outputKinds := outputs.outputKinds.insert (foldPortableTeamSkillPath U path) kind, canonicalOutputPaths := recorded }

/-- One path that the server passes. -/
theorem addOutput_ok {wrapper : Option (List Char)} {outputs outputs' : SkillBundle.Outputs} {entry : List Char × EntryKind}
    (h : SkillBundle.addOutput U wrapper outputs entry = .ok outputs') :
    SkillBundle.targetOf wrapper entry.1 = [] ∧ outputs' = outputs ∨
      SkillBundle.targetOf wrapper entry.1 ≠ [] ∧ ∃ recorded,
        Extracted U outputs (SkillBundle.targetOf wrapper entry.1) entry.2 recorded ∧
          outputs' = outputsWith U outputs (SkillBundle.targetOf wrapper entry.1) entry.2 recorded := by
  unfold SkillBundle.addOutput at h
  generalize SkillBundle.targetOf wrapper entry.1 = target at h ⊢
  cases target with
  | nil =>
    simp only [List.isEmpty_nil, if_true, pure_eq_ok] at h
    exact .inl ⟨rfl, h.symm⟩
  | cons c cs =>
    refine .inr ⟨List.cons_ne_nil c cs, ?_⟩
    cases hportable : getPortableTeamSkillRelativePathError U (c :: cs) entry.2 with
    | some e => simp [hportable, throw, throwThe, MonadExceptOf.throw, bind, Except.bind] at h
    | none =>
      simp only [List.isEmpty_cons, Bool.false_eq_true, if_false, hportable, bind_eq_ok, refuse_eq_ok, mapError_eq_ok,
        pure_eq_ok] at h
      obtain ⟨hmarker, recorded, hspelling, hunused, rfl⟩ := h
      exact ⟨recorded, ⟨hportable, hmarker, hspelling, hunused⟩, rfl⟩

/-- The client plans nothing for the wrapper. -/
theorem planEntry_wrapper {wrapper : Option (List Char)} (plan : SkillZip.Plan) {entry : SkillZip.RawEntry}
    (h : SkillZip.targetOf wrapper entry.normalizedPath = []) :
    SkillZip.planEntry U wrapper plan entry = .ok { plan with planned := plan.planned ++ [zipOf wrapper entry] } := by
  simp only [SkillZip.planEntry, h, List.isEmpty_nil, if_true, pure_eq_ok, zipOf]

/-- The client plans a path that the server passes. -/
theorem planEntry_extracted {wrapper : Option (List Char)} {plan : SkillZip.Plan} {outputs : SkillBundle.Outputs}
    {entry : SkillZip.RawEntry} {recorded : CanonicalPaths} (hkinds : outputs.outputKinds = plan.outputKinds)
    (hpaths : outputs.canonicalOutputPaths = plan.canonicalOutputPaths)
    (hne : SkillZip.targetOf wrapper entry.normalizedPath ≠ [])
    (h : Extracted U outputs (SkillZip.targetOf wrapper entry.normalizedPath) entry.kind recorded) :
    SkillZip.planEntry U wrapper plan entry = .ok {
      planned := plan.planned ++ [zipOf wrapper entry]
      outputKinds := plan.outputKinds.insert (foldPortableTeamSkillPath U (SkillZip.targetOf wrapper entry.normalizedPath)) entry.kind
      canonicalOutputPaths := recorded } := by
  obtain ⟨hportable, hmarker, hspelling, hunused⟩ := h
  rw [hpaths] at hspelling
  rw [hkinds] at hunused
  have hempty : (SkillZip.targetOf wrapper entry.normalizedPath).isEmpty = false := by simpa using hne
  simp only [SkillZip.planEntry, hempty, Bool.false_eq_true, if_false, hportable, bind_eq_ok, refuse_eq_ok, mapError_eq_ok,
    pure_eq_ok]
  exact ⟨hmarker, recorded, hspelling, hunused, rfl⟩

/-! ## Recorded paths -/

/-- What a recorded candidate leaves. -/
theorem recordCandidate_ok {paths paths' : CanonicalPaths} {candidate : List Char}
    (h : recordCandidate U paths candidate = .ok paths') :
    paths' = paths.insert (foldPortableTeamSkillPath U candidate) candidate ∧
      ∀ existing, paths.lookup (foldPortableTeamSkillPath U candidate) = some existing → existing = candidate := by
  unfold recordCandidate at h
  cases hlookup : paths.lookup (foldPortableTeamSkillPath U candidate) with
  | none =>
    rw [hlookup] at h
    exact ⟨(Except.ok.inj h).symm, fun existing hex => absurd hex (by simp)⟩
  | some existing =>
    rw [hlookup] at h
    dsimp only at h
    by_cases hne : existing = candidate
    · rw [if_neg (not_not_intro hne)] at h
      refine ⟨(Except.ok.inj h).symm, fun other hother => ?_⟩
      rw [← Option.some.inj hother, hne]
    · rw [if_pos hne] at h
      exact absurd h (by simp)

/-- A recorded path stays recorded. -/
theorem recordCandidate_keeps {paths paths' : CanonicalPaths} {candidate key path : List Char}
    (h : recordCandidate U paths candidate = .ok paths') (hpath : paths.lookup key = some path) : paths'.lookup key = some path := by
  obtain ⟨rfl, hsame⟩ := recordCandidate_ok h
  by_cases hkey : key = foldPortableTeamSkillPath U candidate
  · subst hkey
    rw [AList.lookup_insert, hsame path hpath]
  · rw [AList.lookup_insert_ne hkey, hpath]

/-- Recording candidates keeps what is recorded. -/
theorem foldlM_recordCandidate_keeps {candidates : List (List Char)} {paths paths' : CanonicalPaths} {key path : List Char}
    (h : candidates.foldlM (recordCandidate U) paths = .ok paths') (hpath : paths.lookup key = some path) :
    paths'.lookup key = some path :=
  foldlM_invariant (fun _ _ _ hp hstep => recordCandidate_keeps hstep hp) hpath h

/-- Recording candidates records each. -/
theorem foldlM_recordCandidate_records {candidates : List (List Char)} {paths paths' : CanonicalPaths}
    (h : candidates.foldlM (recordCandidate U) paths = .ok paths') :
    ∀ c ∈ candidates, paths'.lookup (foldPortableTeamSkillPath U c) = some c := by
  induction candidates generalizing paths with
  | nil =>
    intro c hc
    exact absurd hc List.not_mem_nil
  | cons candidate candidates ih =>
    rw [List.foldlM_cons, bind_eq_ok] at h
    obtain ⟨mid, hmid, hrest⟩ := h
    intro c hc
    rcases List.mem_cons.1 hc with rfl | hc
    · refine foldlM_recordCandidate_keeps hrest ?_
      rw [(recordCandidate_ok hmid).1, AList.lookup_insert]
    · exact ih hrest c hc

/-! ## The plan the client makes -/

/-- What is known of a planned path. -/
structure Placed (U : Unicode) (kinds : AList fun _ : List Char => EntryKind) (paths : CanonicalPaths)
    (e : SkillZip.ZipSkillEntry) : Prop where
  portable : getPortableTeamSkillRelativePathError U e.targetPath e.kind = none
  marker : (segmentsOf e.targetPath).headD [] ≠ ownershipMarker
  kindOf : kinds.lookup (foldPortableTeamSkillPath U e.targetPath) = some e.kind
  recorded : ∀ p ∈ candidatesOf e.targetPath, paths.lookup (foldPortableTeamSkillPath U p) = some p

/-- The two inspections after the same paths. -/
structure SamePlan (U : Unicode) (outputs : SkillBundle.Outputs) (plan : SkillZip.Plan) : Prop where
  kinds : outputs.outputKinds = plan.outputKinds
  paths : outputs.canonicalOutputPaths = plan.canonicalOutputPaths
  placed : ∀ e ∈ plan.planned, e.targetPath ≠ [] → Placed U plan.outputKinds plan.canonicalOutputPaths e
  distinct : plan.planned.Pairwise fun a b => a.targetPath ≠ [] → b.targetPath ≠ [] →
    foldPortableTeamSkillPath U a.targetPath ≠ foldPortableTeamSkillPath U b.targetPath

/-- A planned path stays placed when another is extracted. -/
theorem Placed.extract {outputs : SkillBundle.Outputs} {path : List Char} {kind : EntryKind} {recorded : CanonicalPaths}
    {e : SkillZip.ZipSkillEntry} (h : Placed U outputs.outputKinds outputs.canonicalOutputPaths e)
    (hx : Extracted U outputs path kind recorded) :
    Placed U (outputs.outputKinds.insert (foldPortableTeamSkillPath U path) kind) recorded e := by
  refine ⟨h.portable, h.marker, ?_, fun p hp => foldlM_recordCandidate_keeps hx.spelling (h.recorded p hp)⟩
  have hne : foldPortableTeamSkillPath U e.targetPath ≠ foldPortableTeamSkillPath U path := by
    intro heq
    refine hx.unused ?_
    rw [← heq, h.kindOf, Option.isSome_some]
  rw [AList.lookup_insert_ne hne, h.kindOf]

/-- The path that is extracted is placed. -/
theorem Extracted.placed {outputs : SkillBundle.Outputs} {e : SkillZip.ZipSkillEntry} {recorded : CanonicalPaths}
    (hx : Extracted U outputs e.targetPath e.kind recorded) :
    Placed U (outputs.outputKinds.insert (foldPortableTeamSkillPath U e.targetPath) e.kind) recorded e := by
  refine ⟨hx.portable, fun h => hx.marker (by rw [h]), AList.lookup_insert _, ?_⟩
  exact fun p hp => foldlM_recordCandidate_records hx.spelling p hp

/-- The client plans what the server passes, and the two stay the same. -/
theorem planEntry_same {wrapper : Option (List Char)} {outputs outputs' : SkillBundle.Outputs} {plan : SkillZip.Plan}
    {entry : SkillZip.RawEntry} (h : SamePlan U outputs plan)
    (hstep : SkillBundle.addOutput U wrapper outputs (entry.normalizedPath, entry.kind) = .ok outputs') :
    ∃ plan', SkillZip.planEntry U wrapper plan entry = .ok plan' ∧ SamePlan U outputs' plan' := by
  rcases addOutput_ok hstep with ⟨hempty, rfl⟩ | ⟨hne, recorded, hx, rfl⟩
  · refine ⟨_, planEntry_wrapper plan hempty, h.kinds, h.paths, ?_, ?_⟩
    · intro e he hne
      rcases List.mem_append.1 he with he | he
      · exact h.placed e he hne
      · obtain rfl := List.mem_singleton.1 he
        exact absurd hempty hne
    · refine List.pairwise_append.2 ⟨h.distinct, List.pairwise_singleton _ _, ?_⟩
      intro a _ b hb _ hne
      obtain rfl := List.mem_singleton.1 hb
      exact absurd hempty hne
  · have hold : ∀ e ∈ plan.planned, e.targetPath ≠ [] → Placed U outputs.outputKinds outputs.canonicalOutputPaths e := by
      intro e he hne
      rw [h.kinds, h.paths]
      exact h.placed e he hne
    refine ⟨_, planEntry_extracted h.kinds h.paths hne hx, ?_, rfl, ?_, ?_⟩
    · simp only [outputsWith, h.kinds]
      rfl
    · intro e he hne
      rw [← h.kinds]
      rcases List.mem_append.1 he with he | he
      · exact (hold e he hne).extract hx
      · obtain rfl := List.mem_singleton.1 he
        exact Extracted.placed (e := zipOf wrapper entry) hx
    · refine List.pairwise_append.2 ⟨h.distinct, List.pairwise_singleton _ _, ?_⟩
      intro a ha b hb hane _ heq
      obtain rfl := List.mem_singleton.1 hb
      refine hx.unused ?_
      have := (hold a ha hane).kindOf
      rw [heq] at this
      exact Option.isSome_of_eq_some this

/-- The two passes over the paths. -/
theorem plan_same {wrapper : Option (List Char)} {rawEntries : List SkillZip.RawEntry} {outputs : SkillBundle.Outputs}
    (h : (rawEntries.map fun e => (e.normalizedPath, e.kind)).foldlM (SkillBundle.addOutput U wrapper)
      { outputKinds := ∅, canonicalOutputPaths := ∅ } = .ok outputs) :
    ∃ plan, rawEntries.foldlM (SkillZip.planEntry U wrapper) { planned := [], outputKinds := ∅, canonicalOutputPaths := ∅ } =
      .ok plan ∧ SamePlan U outputs plan := by
  have hinit : SamePlan U { outputKinds := ∅, canonicalOutputPaths := ∅ }
      { planned := [], outputKinds := ∅, canonicalOutputPaths := ∅ } :=
    ⟨rfl, rfl, fun e he => absurd he List.not_mem_nil, List.Pairwise.nil⟩
  have hstep : ∀ outputs plan (entry : SkillZip.RawEntry) outputs', SamePlan U outputs plan →
      SkillBundle.addOutput U wrapper outputs (entry.normalizedPath, entry.kind) = .ok outputs' →
      ∃ plan', SkillZip.planEntry U wrapper plan entry = .ok plan' ∧ SamePlan U outputs' plan' :=
    fun _ _ _ _ hR hok => planEntry_same hR hok
  exact foldlM_simulation hstep hinit h

/-- One entry that the client plans is added at the end. -/
theorem planEntry_planned {wrapper : Option (List Char)} {plan plan' : SkillZip.Plan} {entry : SkillZip.RawEntry}
    (h : SkillZip.planEntry U wrapper plan entry = .ok plan') : plan'.planned = plan.planned ++ [zipOf wrapper entry] := by
  unfold SkillZip.planEntry at h
  by_cases hempty : (SkillZip.targetOf wrapper entry.normalizedPath).isEmpty = true
  · simp only [hempty, if_true, pure_eq_ok] at h
    rw [← h]
    rfl
  · simp only [hempty] at h
    cases hportable : getPortableTeamSkillRelativePathError U (SkillZip.targetOf wrapper entry.normalizedPath) entry.kind with
    | some e => simp [hportable, throw, throwThe, MonadExceptOf.throw, bind, Except.bind] at h
    | none =>
      simp only [Bool.false_eq_true, if_false, hportable, bind_eq_ok, refuse_eq_ok, pure_eq_ok] at h
      obtain ⟨_, _, _, _, hplan⟩ := h
      rw [← hplan]
      rfl

/-- What the client plans, entry by entry. -/
theorem planned_eq {wrapper : Option (List Char)} {rawEntries : List SkillZip.RawEntry} {plan : SkillZip.Plan}
    (h : rawEntries.foldlM (SkillZip.planEntry U wrapper) { planned := [], outputKinds := ∅, canonicalOutputPaths := ∅ } =
      .ok plan) : plan.planned = rawEntries.map (zipOf wrapper) := by
  have hstep : ∀ plan entry plan', SkillZip.planEntry U wrapper plan entry = .ok plan' →
      plan'.planned = plan.planned ++ [zipOf wrapper entry] := fun _ _ _ hok => planEntry_planned hok
  simpa using foldlM_collects hstep h

/-! ## Files used as directories -/

/-- When the server finds no file used as a directory, no planned path has a file among its ancestors. -/
theorem not_usesFileAsDirectory {outputs : SkillBundle.Outputs} {plan : SkillZip.Plan} (h : SamePlan U outputs plan)
    (hnone : SkillBundle.fileUsedAsDirectory outputs = none) : ∀ e ∈ plan.planned,
      ¬ SkillZip.usesFileAsDirectory U plan e = true := by
  intro e he huses
  simp only [SkillZip.usesFileAsDirectory, Bool.and_eq_true, List.any_eq_true, beq_iff_eq, Bool.not_eq_true',
    List.isEmpty_eq_false_iff] at huses
  obtain ⟨hne, ancestor, hancestor, hfile⟩ := huses
  obtain ⟨rest, hrest⟩ := eq_of_mem_ancestorsOf hancestor
  have hkind := (h.placed e he hne).kindOf
  rw [← h.kinds] at hfile hkind
  have hkey : ∀ {key kind}, outputs.outputKinds.lookup key = some kind → key ∈ outputs.outputKinds.keys := by
    intro key kind hlookup
    exact AList.mem_keys.1 (AList.lookup_isSome.1 (Option.isSome_of_eq_some hlookup))
  have hanc := List.findSome?_eq_none_iff.1 hnone _ (hkey hfile)
  rw [if_pos hfile, List.find?_eq_none] at hanc
  refine hanc _ (hkey hkind) (List.isPrefixOf_iff_prefix.2 ⟨foldPortableTeamSkillPath U rest, ?_⟩)
  rw [hrest, fold_slash, List.append_assoc, List.singleton_append]

/-! ## The manifest and the wrapper -/

/-- Where the manifest is, and what the wrapper holds. -/
theorem findWrapper_ok {manifest : SkillZip.RawEntry} {rawEntries : List SkillZip.RawEntry} {wrapper : Option (List Char)}
    (h : SkillZip.findWrapper manifest rawEntries = .ok wrapper) :
    (wrapper = none ∧ segmentsOf manifest.normalizedPath = ["SKILL.md".toList]) ∨
      ∃ top, wrapper = some top ∧ segmentsOf manifest.normalizedPath = [top, "SKILL.md".toList] ∧
        ∀ e ∈ rawEntries, (e.normalizedPath = top ∧ e.kind = .directory) ∨ ∃ rest, e.normalizedPath = top ++ '/' :: rest := by
  simp only [SkillZip.findWrapper, refuse_eq_ok, not_or, not_not] at h
  obtain ⟨⟨hlength, hlast⟩, h⟩ := h
  have hne := segmentsOf_ne_nil manifest.normalizedPath
  generalize segmentsOf manifest.normalizedPath = segments at h hlength hlast hne ⊢
  match segments, hne, hlength, hlast, h with
  | [last], _, _, hlast, h =>
    obtain rfl : last = "SKILL.md".toList := by simpa using hlast
    rw [if_neg (by simp), pure_eq_ok] at h
    exact .inl ⟨h.symm, rfl⟩
  | [top, last], _, _, hlast, h =>
    obtain rfl : last = "SKILL.md".toList := by simpa using hlast
    rw [if_pos (by rfl)] at h
    simp only [refuse_eq_ok, pure_eq_ok] at h
    simp only [List.headD_cons] at h
    obtain ⟨hinside, hanchor, rfl⟩ := h
    refine .inr ⟨top, rfl, rfl, fun e he => ?_⟩
    by_cases htop : e.normalizedPath = top
    · refine .inl ⟨htop, ?_⟩
      cases hkind : e.kind with
      | directory => rfl
      | file => exact absurd (List.any_eq_true.2 ⟨e, he, by simp [htop, hkind]⟩) hanchor
    · refine .inr ?_
      by_contra hrest
      refine hinside (List.any_eq_true.2 ⟨e, he, ?_⟩)
      simp only [Bool.and_eq_true, bne_iff_ne, Bool.not_eq_true', Bool.eq_false_iff, ne_eq, List.isPrefixOf_iff_prefix]
      refine ⟨htop, fun hprefix => hrest ?_⟩
      obtain ⟨rest, hrest⟩ := hprefix
      exact ⟨rest, by rw [← hrest, List.append_assoc, List.singleton_append]⟩
  | _ :: _ :: _ :: _, _, hlength, _, _ => exact absurd hlength (by simp)

/-- A path below the wrapper is extracted to the rest of it. -/
theorem targetOf_below (top rest : List Char) : SkillZip.targetOf (some top) (top ++ '/' :: rest) = rest := by
  have hne : top ++ '/' :: rest ≠ top := by
    intro h
    have := congrArg List.length h
    simp at this
  simp only [SkillZip.targetOf, if_neg hne]
  rw [List.drop_append, List.drop_eq_nil_of_le (by omega), Nat.add_sub_cancel_left, List.drop_one, List.nil_append, List.tail_cons]

/-- The manifest is extracted to the root. -/
theorem targetOf_manifest {manifest : SkillZip.RawEntry} {rawEntries : List SkillZip.RawEntry} {wrapper : Option (List Char)}
    (h : SkillZip.findWrapper manifest rawEntries = .ok wrapper) :
    SkillZip.targetOf wrapper manifest.normalizedPath = "SKILL.md".toList := by
  rcases findWrapper_ok h with ⟨rfl, hsegments⟩ | ⟨top, rfl, hsegments, _⟩
  · rw [SkillZip.targetOf, ← joinSegments_segmentsOf manifest.normalizedPath, hsegments]
    rfl
  · have hpath : manifest.normalizedPath = top ++ '/' :: "SKILL.md".toList := by
      rw [← joinSegments_segmentsOf manifest.normalizedPath, hsegments]
      rfl
    rw [hpath, targetOf_below]

/-- What is extracted nowhere is the directory of the wrapper. -/
theorem directory_of_targetOf_eq_nil {manifest : SkillZip.RawEntry} {rawEntries : List SkillZip.RawEntry}
    {wrapper : Option (List Char)} (h : SkillZip.findWrapper manifest rawEntries = .ok wrapper)
    (hsegments : ∀ e ∈ rawEntries, [] ∉ segmentsOf e.normalizedPath) :
    ∀ e ∈ rawEntries, SkillZip.targetOf wrapper e.normalizedPath = [] → e.kind = .directory := by
  intro e he hempty
  rcases findWrapper_ok h with ⟨rfl, _⟩ | ⟨top, rfl, _, hinside⟩
  · refine absurd ?_ (hsegments e he)
    rw [show e.normalizedPath = [] from hempty]
    decide
  · rcases hinside e he with ⟨_, hkind⟩ | ⟨rest, hpath⟩
    · exact hkind
    · refine absurd ?_ (hsegments e he)
      rw [hpath, targetOf_below] at hempty
      rw [hpath, hempty, segmentsOf, List.splitOn_append_cons_self]
      exact List.mem_append_right _ (by decide)

/-- The plan that the client makes of a bundle whose outputs the server has passed is safe. -/
theorem safePlan {manifest : SkillZip.RawEntry} {rawEntries : List SkillZip.RawEntry} {wrapper : Option (List Char)}
    {outputs : SkillBundle.Outputs} {plan : SkillZip.Plan} (hsame : SamePlan U outputs plan)
    (hplanned : plan.planned = rawEntries.map (zipOf wrapper)) (hwrapper : SkillZip.findWrapper manifest rawEntries = .ok wrapper)
    (hmanifest : rawEntries.filter (SkillZip.isManifest U) = [manifest])
    (hsegments : ∀ e ∈ rawEntries, [] ∉ segmentsOf e.normalizedPath)
    (htree : ∀ e ∈ plan.planned, ¬ SkillZip.usesFileAsDirectory U plan e = true) : SafePlan U plan.planned where
  portable e he hne := (hsame.placed e he hne).portable
  spelling a ha b hb hane hbne p hp q hq heq := by
    have hpath := (hsame.placed a ha hane).recorded p hp
    rw [heq, (hsame.placed b hb hbne).recorded q hq] at hpath
    exact (Option.some.inj hpath).symm
  distinct := hsame.distinct
  tree a ha b hb hfile hane hbne hancestor := by
    refine htree b hb ?_
    simp only [SkillZip.usesFileAsDirectory, Bool.and_eq_true, List.any_eq_true, beq_iff_eq, Bool.not_eq_true',
      List.isEmpty_eq_false_iff]
    refine ⟨hbne, a.targetPath, hancestor, ?_⟩
    rw [(hsame.placed a ha hane).kindOf, hfile]
  marker e he hne := (hsame.placed e he hne).marker
  manifest := by
    have hmem : manifest ∈ rawEntries.filter (SkillZip.isManifest U) := by
      rw [hmanifest]
      exact List.mem_singleton_self manifest
    obtain ⟨hraw, hkind⟩ := List.mem_filter.1 hmem
    have htarget : (zipOf wrapper manifest).targetPath = "SKILL.md".toList := targetOf_manifest hwrapper
    refine ⟨zipOf wrapper manifest, filter_eq_singleton ?_ ?_ (beq_iff_eq.2 htarget), ?_⟩
    · refine hsame.distinct.imp fun hdistinct hboth => ?_
      obtain ⟨ha, hb⟩ := hboth
      rw [eq_of_beq ha, eq_of_beq hb] at hdistinct
      exact hdistinct (by decide) (by decide) rfl
    · rw [hplanned]
      exact List.mem_map_of_mem hraw
    · simp only [SkillZip.isManifest, Bool.and_eq_true, beq_iff_eq] at hkind
      exact hkind.1
  wrapper e he hempty := by
    rw [hplanned] at he
    obtain ⟨raw, hraw, rfl⟩ := List.mem_map.1 he
    exact directory_of_targetOf_eq_nil hwrapper hsegments raw hraw hempty

/-! ## Admission and installation -/

/-- What the server finds in a bundle that it admits. -/
structure Admitted (U : Unicode) (zip : List ZipEntry) (server : SkillBundle.Scan) (skillPath : List Char) (bytes : List UInt8)
    (wrapper : Option (List Char)) (outputs : SkillBundle.Outputs) : Prop where
  scanned : zip.foldlM (SkillBundle.visitEntry U) SkillBundle.Scan.init = .ok server
  markdown : server.skillMarkdown = [(skillPath, bytes)]
  wrapped : SkillBundle.findWrapper skillPath server.entries = .ok wrapper
  extracted : server.entries.foldlM (SkillBundle.addOutput U wrapper) { outputKinds := ∅, canonicalOutputPaths := ∅ } = .ok outputs
  tree : SkillBundle.fileUsedAsDirectory outputs = none

/-- A bundle that the server admits. -/
theorem inspectZip_ok {Meta : Type} {M : ManifestReader Meta} {zip : List ZipEntry} {bundle : ValidatedSkillBundle Meta}
    (h : SkillBundle.inspectZip U M zip = .ok bundle) :
    ∃ server skillPath bytes wrapper outputs, Admitted U zip server skillPath bytes wrapper outputs := by
  rw [SkillBundle.inspectZip, bind_eq_ok] at h
  obtain ⟨server, hserver, h⟩ := h
  match hmarkdown : server.skillMarkdown, h with
  | [(skillPath, bytes)], h =>
    rw [bind_eq_ok] at h
    obtain ⟨wrapper, hwrapper, h⟩ := h
    rw [bind_eq_ok] at h
    obtain ⟨outputs, houtputs, h⟩ := h
    refine ⟨server, skillPath, bytes, wrapper, outputs, hserver, hmarkdown, hwrapper, houtputs, ?_⟩
    cases hused : SkillBundle.fileUsedAsDirectory outputs with
    | none => rfl
    | some candidate => simp [hused, throw, throwThe, MonadExceptOf.throw, bind, Except.bind] at h
  | [], h => exact absurd h (by simp [throw, throwThe, MonadExceptOf.throw])
  | _ :: _ :: _, h => exact absurd h (by simp [throw, throwThe, MonadExceptOf.throw])

/-- A bundle that the client installs. -/
theorem inspectSkillZip_eq_ok {zip : List ZipEntry} {client : SkillZip.Scan} {manifest : SkillZip.RawEntry}
    {wrapper : Option (List Char)} {plan : SkillZip.Plan}
    (hclient : zip.foldlM (SkillZip.visitEntry U) SkillZip.Scan.init = .ok client)
    (hmanifest : client.rawEntries.filter (SkillZip.isManifest U) = [manifest])
    (hwrapper : SkillZip.findWrapper manifest client.rawEntries = .ok wrapper)
    (hplan : client.rawEntries.foldlM (SkillZip.planEntry U wrapper)
      { planned := [], outputKinds := ∅, canonicalOutputPaths := ∅ } = .ok plan)
    (htree : ∀ e ∈ plan.planned, ¬ SkillZip.usesFileAsDirectory U plan e = true) :
    SkillZip.inspectSkillZip U zip = .ok plan.planned := by
  rw [SkillZip.inspectSkillZip, bind_eq_ok]
  refine ⟨client, hclient, ?_⟩
  rw [hmanifest]
  dsimp only
  rw [bind_eq_ok]
  refine ⟨wrapper, hwrapper, ?_⟩
  rw [bind_eq_ok]
  refine ⟨plan, hplan, ?_⟩
  rw [List.find?_eq_none.2 htree]
  rfl

end SkillZipAux

open SkillZipAux

/-- A bundle that the server admits is one that the client installs, by a plan that is safe and portable. -/
theorem admitted_bundle_installable {Meta : Type} (U : Unicode) (M : ManifestReader Meta) (zip : List ZipEntry)
    (bundle : ValidatedSkillBundle Meta) (h : SkillBundle.inspectZip U M zip = .ok bundle) :
    ∃ plan, SkillZip.inspectSkillZip U zip = .ok plan ∧ SafePlan U plan := by
  obtain ⟨server, skillPath, bytes, wrapper, outputs, hadmitted⟩ := inspectZip_ok h
  obtain ⟨client, hclient, hscan⟩ := scan_same hadmitted.scanned
  -- The server goes on with exactly one manifest, and so does the client.
  have hpaths := hscan.markdown
  rw [hadmitted.markdown] at hpaths
  obtain ⟨manifest, hmanifest, hskill⟩ := List.map_eq_singleton_iff.1 hpaths.symm
  have hskill : manifest.normalizedPath = skillPath := hskill
  have hwrapper := hadmitted.wrapped
  have houtputs := hadmitted.extracted
  rw [hscan.entries] at hwrapper houtputs
  rw [← hskill, findWrapper_same] at hwrapper
  obtain ⟨plan, hplan, hsame⟩ := plan_same houtputs
  have htree := not_usesFileAsDirectory hsame hadmitted.tree
  exact ⟨plan.planned, inspectSkillZip_eq_ok hclient hmanifest hwrapper hplan htree,
    safePlan hsame (planned_eq hplan) hwrapper hmanifest hscan.segments htree⟩

namespace SkillZipExample

/-- The Unicode functions on ASCII. -/
def ascii : Unicode where
  nfc := id
  nfkc := id
  toLowerCase := List.map Char.toLower
  toUpperCase := List.map Char.toUpper
  nfc_slash _ _ := rfl
  nfkc_slash _ _ := rfl
  toLowerCase_slash a b := by rw [List.map_append, List.map_cons, show Char.toLower '/' = '/' by decide]
  toUpperCase_slash a b := by rw [List.map_append, List.map_cons, show Char.toUpper '/' = '/' by decide]

/-- The fields of a frontmatter of two lines. -/
def parse (markdown : List Char) : Except String (StrictTeamSkillMarkdown Unit) :=
  match markdown.splitOn '\n' with
  | [_, name, description, _, body] =>
    .ok { name := some (name.drop 6), description := some (description.drop 13), «namespace» := none, metadata := none, body := body }
  | _ => .error "no frontmatter"

/-- A reader of ASCII manifests. -/
def reader : ManifestReader Unit where
  decodeUtf8 bytes := if bytes.all (· < 128) then some (bytes.map fun b => Char.ofNat b.toNat) else none
  parseStrictTeamSkillMarkdown := parse

/-- The bytes of an ASCII text. -/
def bytesOf (text : String) : List UInt8 := text.toList.map fun c => c.toNat.toUInt8

/-- An entry of a bundle packed on Unix. -/
def entryOf (fileName : String) (mode : Nat) (text : String) : ZipEntry :=
  { fileName := fileName.toList, versionMadeBy := 0x031e, externalFileAttributes := mode <<< 16, generalPurposeBitFlag := 0,
    uncompressedSize := (bytesOf text).length, content := .ok (bytesOf text) }

/-- A manifest and a note in a directory. -/
def bundleZip : List ZipEntry :=
  [entryOf "skill/" 0o040755 "", entryOf "skill/SKILL.md" 0o100644 "---\nname: qa\ndescription: Test\n---\nRun",
    entryOf "skill/docs/note.txt" 0o100755 "hi"]

/-- The bundle as the server admits it. -/
def admitted : ValidatedSkillBundle Unit :=
  { name := "qa".toList,
    payload := { name := "qa".toList, «namespace» := none, description := "Test".toList, body := "Run".toList, metadata := none } }

end SkillZipExample

open SkillZipExample

theorem wrapped_bundle_installable : ∃ plan, SkillZip.inspectSkillZip ascii bundleZip = .ok plan ∧ SafePlan ascii plan :=
  admitted_bundle_installable ascii reader bundleZip admitted (by rfl)

end FirstTree
