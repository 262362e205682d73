import FirstTree.Lib.Trimming
import FirstTree.Server.EffectiveResources

/-!
# Effective resources are unambiguous

After the passes the enabled repos with a path, the Skills with a target and the MCP servers have different ones, and the prompts
fit the budget. What the result still depends on is the order of the recommended Team resources within a bucket, which no query
fixes. Two more inputs slip through: repos from whose URL no path is derived, and a binding that replaces a Team resource by
itself.
-/

namespace FirstTree

open EffectiveResources SkillPaths

/-- The queries with their resource rows in another order. -/
def ResourceQueries.reordered (q : ResourceQueries) (rows : List ResourceDbRow) (h : rows.Perm q.resources) : ResourceQueries :=
  { q with
    resources := rows
    resources_nodup := (h.map (·.id)).nodup_iff.2 q.resources_nodup
    resources_filled := fun r hr => q.resources_filled r (h.subset hr) }

/-- All rows of a result. -/
def allRows (r : EffectiveAgentResources) : List EffectiveResourceRow := r.repos ++ r.prompts ++ r.skills ++ r.mcp

/-- What the names in a runtime config are: different paths, targets and folded names, and prompts that are rendered within the
budget. -/
structure ConfigSound (env : ResourceEnvironment) (prompts : List EffectiveResourceRow) (config : RuntimeConfig) : Prop where
  repos : (config.gitRepos.map localPathOf).Nodup
  skills : (config.resourceSkills.filterMap fun skill => skillTarget env skill.skill.name).Nodup
  mcp : (config.mcpServers.map fun server => env.unicode.toLowerCase server.name).Nodup
  budget : utf16Length config.append ≤ promptAppendMaxLength
  rendering : config.append = ContextSourceLink.trim
    ((prompts.filter fun row => isEnabled row && (filled row.promptBody).isSome).flatMap renderedRow)

/-- What the result of the resolution is for some queries. -/
structure ResourcesSound (env : ResourceEnvironment) (q : ResourceQueries) : Prop where
  repos : (((resolveEffectiveResources env q).repos.filter isEnabled).filterMap fun row => row.repo.map localPathOf).Nodup
  skills : (((resolveEffectiveResources env q).skills.filter isEnabled).filterMap fun row =>
    (rowSkill row).bind fun skill => skillTarget env skill.name).Nodup
  mcp : (((resolveEffectiveResources env q).mcp.filter isEnabled).filterMap fun row =>
    (rowMcp env row).map fun server => env.unicode.toLowerCase server.name).Nodup
  config : ∀ stored, ∃ config, resolveRuntimeConfig env q stored = some config ∧
    ConfigSound env (resolveEffectiveResources env q).prompts config
  replaced : ∀ r ∈ selected q, r.scope = .team → ∀ b ∈ q.bindings, (disables b r.id = true ∨ replaces b r.id = true) →
    (∀ b' ∈ q.bindings, b'.id ≠ b.id → binds b' r.id = false) →
    ∀ row ∈ allRows (resolveEffectiveResources env q), isEnabled row = true → row.resourceId ≠ some r.id
  order : ∀ rows (h : rows.Perm q.resources), resolveEffectiveResources env (q.reordered rows h) = resolveEffectiveResources env q ∧
    ∀ stored, resolveRuntimeConfig env (q.reordered rows h) stored = resolveRuntimeConfig env q stored

/-- A row that is enabled with a repo from whose URL no path is derived. -/
def isPathless (row : EffectiveResourceRow) : Bool := isEnabled row && row.repo.any fun repo => (localPathOf repo).isEmpty

/-- Every bucket has at most one recommended Team resource that no binding names, and at most one repo is without a path. -/
structure OrderFixed (env : ResourceEnvironment) (q : ResourceQueries) : Prop where
  recommended : ∀ type : ResourceType, ((recommended q).filter fun r => decide (r.type = type)).length ≤ 1
  pathless : ((bucket env q .repo).filter isPathless).length ≤ 1

/-- No binding is alone in binding a Team resource that it also replaces. -/
def NoSelfReplacement (q : ResourceQueries) : Prop :=
  ∀ r ∈ selected q, r.scope = .team → ∀ b ∈ q.bindings, replaces b r.id = true → binds b r.id = true →
    ∃ b' ∈ q.bindings, b'.id ≠ b.id ∧ binds b' r.id = true

namespace EffectiveResourcesAux

/-! ## Rows that a pass changes -/

/-- A row that a pass makes unavailable is not enabled. -/
@[simp] theorem isEnabled_unavailableRow (reason : String) (row : EffectiveResourceRow) :
    isEnabled (unavailableRow reason row) = false :=
  rfl

/-- An unavailable row has no path that counts. -/
@[simp] theorem rowLocalPath_unavailableRow (reason : String) (row : EffectiveResourceRow) :
    rowLocalPath (unavailableRow reason row) = none := rfl

/-- An unavailable row has no target that counts. -/
@[simp] theorem rowTarget_unavailableRow (env : ResourceEnvironment) (reason : String) (row : EffectiveResourceRow) :
    rowTarget env (unavailableRow reason row) = none := rfl

/-- An unavailable row has no name that counts. -/
@[simp] theorem rowMcpName_unavailableRow (env : ResourceEnvironment) (reason : String) (row : EffectiveResourceRow) :
    rowMcpName env (unavailableRow reason row) = none := rfl

/-- Some rows come out of others by passes: those that stay enabled are the same but for their bundle. -/
def Derived (rows out : List EffectiveResourceRow) : Prop :=
  ∀ row ∈ out, isEnabled row = true → ∃ row' ∈ rows, isEnabled row' = true ∧ row = { row' with skillBundle := row.skillBundle }

/-- Rows come out of themselves. -/
theorem Derived.of_subset {rows out : List EffectiveResourceRow} (h : out ⊆ rows) : Derived rows out :=
  fun row hrow henabled => ⟨row, h hrow, henabled, rfl⟩

/-- Passes one after another. -/
theorem Derived.trans {rows mid out : List EffectiveResourceRow} (h : Derived rows mid) (h' : Derived mid out) :
    Derived rows out := by
  intro row hrow henabled
  obtain ⟨row', hrow', henabled', heq⟩ := h' row hrow henabled
  obtain ⟨row'', hrow'', henabled'', heq'⟩ := h row' hrow' henabled'
  refine ⟨row'', hrow'', henabled'', ?_⟩
  rw [heq, heq']

/-- A pass that makes some rows unavailable. -/
theorem derived_map (p : EffectiveResourceRow → Bool) (reason : String) (rows : List EffectiveResourceRow) :
    Derived rows (rows.map fun row => if p row then unavailableRow reason row else row) := by
  intro row hrow henabled
  obtain ⟨row', hrow', rfl⟩ := List.mem_map.1 hrow
  split at henabled
  · simp at henabled
  · rename_i hp
    simp only [hp, Bool.false_eq_true, if_false]
    exact ⟨row', hrow', henabled, rfl⟩

/-- The loop of the budget. -/
theorem derived_budgetLoop (combined : List Char) (overflow : Bool) (rows : List EffectiveResourceRow) :
    Derived rows (budgetLoop combined overflow rows).1 := by
  induction rows generalizing combined overflow with
  | nil => exact fun row hrow => by simp [budgetLoop] at hrow
  | cons first rows ih =>
    have hrest : ∀ combined overflow row, row ∈ (budgetLoop combined overflow rows).1 → isEnabled row = true →
        ∃ row' ∈ first :: rows, isEnabled row' = true ∧ row = { row' with skillBundle := row.skillBundle } := by
      intro combined overflow row hrow henabled
      obtain ⟨row', hrow', h⟩ := ih combined overflow row hrow henabled
      exact ⟨row', List.mem_cons_of_mem _ hrow', h⟩
    intro row hrow henabled
    simp only [budgetLoop] at hrow
    split at hrow
    · rcases List.mem_cons.1 hrow with rfl | hrow
      · exact ⟨row, List.mem_cons_self, henabled, rfl⟩
      · exact hrest _ _ row hrow henabled
    · split at hrow
      · rcases List.mem_cons.1 hrow with rfl | hrow
        · simp at henabled
        · exact hrest _ _ row hrow henabled
      · rcases List.mem_cons.1 hrow with rfl | hrow
        · exact ⟨row, List.mem_cons_self, henabled, rfl⟩
        · exact hrest _ _ row hrow henabled

/-- The loop of the paths. -/
theorem derived_dedupLoop (seen : List (List Char)) (rows : List EffectiveResourceRow) : Derived rows (dedupLoop seen rows).1 := by
  induction rows generalizing seen with
  | nil => exact fun row hrow => by simp [dedupLoop] at hrow
  | cons first rows ih =>
    have hrest : ∀ seen row, row ∈ (dedupLoop seen rows).1 → isEnabled row = true →
        ∃ row' ∈ first :: rows, isEnabled row' = true ∧ row = { row' with skillBundle := row.skillBundle } := by
      intro seen row hrow henabled
      obtain ⟨row', hrow', h⟩ := ih seen row hrow henabled
      exact ⟨row', List.mem_cons_of_mem _ hrow', h⟩
    intro row hrow henabled
    simp only [dedupLoop] at hrow
    split at hrow
    · rcases List.mem_cons.1 hrow with rfl | hrow
      · exact ⟨row, List.mem_cons_self, henabled, rfl⟩
      · exact hrest _ row hrow henabled
    · split at hrow
      · rcases List.mem_cons.1 hrow with rfl | hrow
        · simp at henabled
        · exact hrest _ row hrow henabled
      · rcases List.mem_cons.1 hrow with rfl | hrow
        · exact ⟨row, List.mem_cons_self, henabled, rfl⟩
        · exact hrest _ row hrow henabled

/-- A sort keeps the rows. -/
theorem perm_sortRows (rows : List EffectiveResourceRow) : (sortRows rows).Perm rows := List.perm_insertionSort _ rows

/-- Sorted rows come out of the rows. -/
theorem derived_sortRows (rows : List EffectiveResourceRow) : Derived rows (sortRows rows) :=
  Derived.of_subset (perm_sortRows rows).subset

/-! ## Local paths -/

/-- The paths that the loop leaves are different, and none was seen. -/
theorem dedupLoop_nodup (seen : List (List Char)) (rows : List EffectiveResourceRow) :
    ((dedupLoop seen rows).1.filterMap rowLocalPath).Nodup ∧ ∀ path ∈ (dedupLoop seen rows).1.filterMap rowLocalPath,
      path ∉ seen := by
  induction rows generalizing seen with
  | nil => simp [dedupLoop]
  | cons row rows ih =>
    cases hpath : rowLocalPath row with
    | none =>
      simp only [dedupLoop, hpath, List.filterMap_cons]
      exact ih seen
    | some path =>
      obtain ⟨hnodup, hnew⟩ := ih (path :: seen)
      have hunseen : ∀ path' ∈ (dedupLoop (path :: seen) rows).1.filterMap rowLocalPath, path' ∉ seen :=
        fun path' hmem hseen => hnew path' hmem (List.mem_cons_of_mem _ hseen)
      simp only [dedupLoop, hpath]
      split
      · simp only [List.filterMap_cons, rowLocalPath_unavailableRow]
        exact ⟨hnodup, hunseen⟩
      · rename_i hseen
        simp only [List.filterMap_cons, hpath]
        refine ⟨List.nodup_cons.2 ⟨fun hmem => hnew path hmem List.mem_cons_self, hnodup⟩, fun path' hmem => ?_⟩
        rcases List.mem_cons.1 hmem with rfl | hmem
        · simpa using hseen
        · exact hunseen path' hmem

/-- A row with a path that counts has a path. -/
theorem isPathless_of_rowLocalPath {row : EffectiveResourceRow} {path : List Char} (h : rowLocalPath row = some path) :
    isPathless row = false := by
  unfold rowLocalPath at h
  split at h
  · obtain ⟨hpath, hfilled⟩ := Option.filter_eq_some_iff.1 h
    obtain ⟨repo, hrepo, rfl⟩ := Option.map_eq_some_iff.1 hpath
    simp only [isPathless, hrepo, Option.any_some]
    simp only [isFilled, Bool.not_eq_true'] at hfilled
    rw [hfilled, Bool.and_false]
  · cases h

/-- The loop leaves the repos without a path as they are. -/
theorem dedupLoop_pathless (seen : List (List Char)) (rows : List EffectiveResourceRow) :
    (dedupLoop seen rows).1.filter isPathless = rows.filter isPathless := by
  induction rows generalizing seen with
  | nil => rfl
  | cons row rows ih =>
    cases hpath : rowLocalPath row with
    | none =>
      simp only [dedupLoop, hpath, List.filter_cons, ih]
    | some path =>
      have hrow := isPathless_of_rowLocalPath hpath
      simp only [dedupLoop, hpath]
      split
      · rw [List.filter_cons_of_neg (by simp [isPathless]), List.filter_cons_of_neg (by simp [hrow]), ih]
      · rw [List.filter_cons_of_neg (by simp [hrow]), List.filter_cons_of_neg (by simp [hrow]), ih]

/-- Texts are different when those that are filled are, and one at most is empty. -/
theorem nodup_iff_filled (l : List (List Char)) : l.Nodup ↔ (l.filter isFilled).Nodup ∧ (l.filter List.isEmpty).length ≤ 1 := by
  constructor
  · intro h
    refine ⟨h.filter _, ?_⟩
    have hempty : ∀ t ∈ l.filter List.isEmpty, t = [] := fun t ht => List.isEmpty_iff.1 (List.mem_filter.1 ht).2
    have hcount := List.nodup_iff_count_le_one.1 (h.filter List.isEmpty) []
    rwa [List.eq_replicate_of_mem hempty, List.count_replicate_self] at hcount
  · rintro ⟨hfilled, hempty⟩
    refine List.nodup_iff_count_le_one.2 fun t => ?_
    cases t with
    | nil =>
      rw [← List.count_filter (p := List.isEmpty) (l := l) rfl]
      exact le_trans List.count_le_length hempty
    | cons c t =>
      rw [← List.count_filter (p := isFilled) (l := l) rfl]
      exact List.nodup_iff_count_le_one.1 hfilled _

/-- The paths of the enabled repos. -/
theorem repoPaths_filled (rows : List EffectiveResourceRow) :
    ((rows.filter isEnabled).filterMap fun row => row.repo.map localPathOf).filter isFilled = rows.filterMap rowLocalPath := by
  induction rows with
  | nil => rfl
  | cons row rows ih =>
    cases henabled : isEnabled row with
    | false => simp [henabled, rowLocalPath, ih]
    | true =>
      rw [List.filter_cons_of_pos henabled]
      cases hrepo : row.repo with
      | none => simp [henabled, rowLocalPath, hrepo, ih]
      | some repo =>
        have hrow : rowLocalPath row = (some (localPathOf repo)).filter isFilled := by simp [rowLocalPath, henabled, hrepo]
        by_cases hfilled : isFilled (localPathOf repo) = true
        · simp [hrepo, hrow, hfilled, ih, Option.filter]
        · simp [hrepo, hrow, hfilled, ih, Option.filter]

/-- The enabled repos without a path. -/
theorem repoPaths_empty (rows : List EffectiveResourceRow) :
    (((rows.filter isEnabled).filterMap fun row => row.repo.map localPathOf).filter List.isEmpty).length =
      (rows.filter isPathless).length := by
  induction rows with
  | nil => rfl
  | cons row rows ih =>
    cases henabled : isEnabled row with
    | false => simp [henabled, isPathless, ih]
    | true =>
      rw [List.filter_cons_of_pos henabled]
      cases hrepo : row.repo with
      | none => simpa [henabled, isPathless, hrepo] using ih
      | some repo =>
        by_cases hempty : (localPathOf repo).isEmpty = true
        · simp [henabled, isPathless, hrepo, hempty, ih]
        · simp [henabled, isPathless, hrepo, hempty, ih]

/-- The paths of the enabled repos are different exactly when at most one is without a path. -/
theorem repos_nodup_iff (rows : List EffectiveResourceRow) :
    (((applyRepoLocalPathDedup rows).1.filter isEnabled).filterMap fun row => row.repo.map localPathOf).Nodup ↔
      (rows.filter isPathless).length ≤ 1 := by
  rw [nodup_iff_filled, repoPaths_filled, repoPaths_empty, applyRepoLocalPathDedup, dedupLoop_pathless,
    and_iff_right (dedupLoop_nodup [] (sortRows rows)).1, ((perm_sortRows rows).filter isPathless).length_eq]

/-! ## Groups -/

/-- How often a key occurs. -/
theorem count_filterMap (key : EffectiveResourceRow → Option (List Char)) (rows : List EffectiveResourceRow) (k : List Char) :
    (rows.filterMap key).count k = (groupOf key rows k).length := by
  induction rows with
  | nil => rfl
  | cons row rows ih =>
    unfold groupOf at ih ⊢
    cases hkey : key row with
    | none => simp [hkey, ih]
    | some k' =>
      by_cases heq : k' = k
      · simp [hkey, heq, ih]
      · simp [hkey, heq, ih]

/-- The keys that are left when the groups of two or more are gone are different. -/
theorem markGroups_nodup (type : ResourceType) (reason : String) (key : EffectiveResourceRow → Option (List Char))
    (rows : List EffectiveResourceRow) (hkey : ∀ row, key (unavailableRow reason row) = none) :
    ((markGroups type reason key rows).1.filterMap key).Nodup := by
  have heq : (markGroups type reason key rows).1.filterMap key =
      (rows.filterMap key).filter fun k => decide ((groupOf key rows k).length < 2) := by
    simp only [markGroups, List.filterMap_map, List.filter_filterMap]
    refine List.filterMap_congr fun row _ => ?_
    cases hrow : key row with
    | none => simp [hrow]
    | some k =>
      by_cases hk : 2 ≤ (groupOf key rows k).length
      · have hmany : decide (2 ≤ (groupOf key rows k).length) = true := decide_eq_true hk
        have hfew : decide ((groupOf key rows k).length < 2) = false := decide_eq_false (by omega)
        simp only [Function.comp, hrow, Option.any_some, hmany, if_true, hkey, Option.filter, hfew, Bool.false_eq_true, if_false]
      · have hmany : decide (2 ≤ (groupOf key rows k).length) = false := decide_eq_false hk
        have hfew : decide ((groupOf key rows k).length < 2) = true := decide_eq_true (by omega)
        simp only [Function.comp, hrow, Option.any_some, hmany, Bool.false_eq_true, if_false, Option.filter, hfew, if_true]
  rw [heq]
  refine List.nodup_iff_count_le_one.2 fun k => ?_
  by_cases hk : (groupOf key rows k).length < 2
  · rw [List.count_filter (by simpa using hk), count_filterMap]
    omega
  · rw [List.count_eq_zero_of_not_mem]
    · exact Nat.zero_le 1
    · intro hmem
      exact hk (of_decide_eq_true (List.mem_filter.1 hmem).2)

/-! ## Resources by their ids -/

/-- A row that is found has the id. -/
theorem byId_spec {rows : List ResourceDbRow} {id : String} {r : ResourceDbRow} (h : byId rows id = some r) : r ∈ rows ∧ r.id = id :=
  ⟨List.mem_reverse.1 (List.mem_of_find?_eq_some h), by simpa using List.find?_some h⟩

/-- The row that a binding enables is its own. -/
theorem bindingRows_enabled {env : ResourceEnvironment} {rows : List ResourceDbRow} {b : BindingDbRow} {row : EffectiveResourceRow}
    (hrow : row ∈ bindingRows env rows b) (henabled : isEnabled row = true) : b.mode ≠ .disable ∧ row = enabledRow env rows b := by
  unfold bindingRows at hrow
  split at hrow
  · obtain ⟨resource, _, rfl⟩ := Option.map_eq_some_iff.1 (Option.mem_toList.1 hrow)
    cases henabled
  · rename_i hmode
    refine ⟨hmode, ?_⟩
    rcases List.mem_append.1 hrow with hrow | hrow
    · split at hrow
      · obtain ⟨resource, _, rfl⟩ := Option.map_eq_some_iff.1 (Option.mem_toList.1 hrow)
        cases henabled
      · simp at hrow
    · split at hrow
      · simp at hrow
      · exact List.mem_singleton.1 hrow

/-- The resource of a row that is enabled: it is recommended and no binding names it, or a binding binds it. -/
theorem bucket_enabled {env : ResourceEnvironment} {q : ResourceQueries} {type : ResourceType} {row : EffectiveResourceRow}
    (hrow : row ∈ bucket env q type) (henabled : isEnabled row = true) :
    (∃ r ∈ recommended q, row = recommendedRow env r) ∨
      ∃ b ∈ q.bindings, b.mode ≠ .disable ∧ row = enabledRow env (selected q) b := by
  rcases List.mem_append.1 (List.mem_filter.1 hrow).1 with hrow | hrow
  · obtain ⟨r, hr, rfl⟩ := List.mem_map.1 hrow
    exact .inl ⟨r, hr, rfl⟩
  · obtain ⟨b, hb, hrow⟩ := List.mem_flatMap.1 hrow
    exact .inr ⟨b, hb, bindingRows_enabled hrow henabled⟩

/-- An enabled row with a payload has the id of a resource. -/
theorem bucket_filledId {env : ResourceEnvironment} {q : ResourceQueries} {type : ResourceType} {row : EffectiveResourceRow}
    (hrow : row ∈ bucket env q type) (henabled : isEnabled row = true) (hpayload : row.payload.isSome = true) :
    (filledId row.resourceId).isSome = true := by
  have hfilled : ∀ r ∈ selected q, (filledId (some r.id)).isSome = true := by
    intro r hr
    simp [filledId, Option.filter, q.resources_filled r (List.mem_filter.1 hr).1]
  rcases bucket_enabled hrow henabled with ⟨r, hr, rfl⟩ | ⟨b, _, _, rfl⟩
  · exact hfilled r (List.mem_filter.1 hr).1
  · obtain ⟨payload, hpayload⟩ := Option.isSome_iff_exists.1 hpayload
    obtain ⟨r, hr, _⟩ := Option.map_eq_some_iff.1 (show (boundResource (selected q) b).map (·.payload) = some payload from hpayload)
    obtain ⟨x, _, hbyId⟩ := Option.bind_eq_some_iff.1 hr
    change (filledId ((boundResource (selected q) b).map (·.id))).isSome = true
    rw [hr]
    exact hfilled r (byId_spec hbyId).1

/-! ## Skills -/

/-- The pass over the bundles. -/
theorem derived_bundles (q : ResourceQueries) (rows : List EffectiveResourceRow) :
    Derived rows (applySkillBundleAvailability q rows).1 := by
  refine Derived.trans (derived_map (fun row => (rowBundle q row).any fun bundleId => (readyBundle q bundleId).isNone)
    "skill_bundle_unavailable" rows) ?_
  intro row hrow henabled
  obtain ⟨row', hrow', rfl⟩ := List.mem_map.1 hrow
  split
  · rename_i bundle hbundle
    simp only [hbundle] at henabled
    exact ⟨row', hrow', henabled, rfl⟩
  · rename_i hbundle
    simp only [hbundle] at henabled
    exact ⟨row', hrow', henabled, rfl⟩

/-- The passes over the Skills. -/
def finalSkills (env : ResourceEnvironment) (q : ResourceQueries) : List EffectiveResourceRow :=
  (applySkillTargetNameDedup env (applySkillValidation (applySkillBundleAvailability q (bucket env q .skill)).1).1).1

/-- The passes over the MCP servers. -/
def finalMcp (env : ResourceEnvironment) (q : ResourceQueries) : List EffectiveResourceRow :=
  (applyMcpNameDedup env (applyMcpValidation env (bucket env q .mcp)).1).1

/-- The grouping passes make rows unavailable. -/
theorem derived_markGroups (type : ResourceType) (reason : String) (key : EffectiveResourceRow → Option (List Char))
    (rows : List EffectiveResourceRow) : Derived rows (markGroups type reason key rows).1 :=
  derived_map (fun row => (key row).any fun k => decide (2 ≤ (groupOf key rows k).length)) reason rows

/-- The validation of Skills makes rows unavailable. -/
theorem derived_skillValidation (rows : List EffectiveResourceRow) : Derived rows (applySkillValidation rows).1 :=
  derived_map _ _ rows

/-- The validation of MCP servers makes rows unavailable. -/
theorem derived_mcpValidation (env : ResourceEnvironment) (rows : List EffectiveResourceRow) :
    Derived rows (applyMcpValidation env rows).1 := derived_map _ _ rows

/-- The rows of the Skills come out of the bucket. -/
theorem derived_finalSkills (env : ResourceEnvironment) (q : ResourceQueries) : Derived (bucket env q .skill) (finalSkills env q) :=
  ((derived_bundles q _).trans (derived_skillValidation _)).trans (derived_markGroups _ _ _ _)

/-- The rows of the MCP servers come out of the bucket. -/
theorem derived_finalMcp (env : ResourceEnvironment) (q : ResourceQueries) : Derived (bucket env q .mcp) (finalMcp env q) :=
  (derived_mcpValidation env _).trans (derived_markGroups _ _ _ _)

/-- A row that a validation leaves enabled is valid, and so are the rows that come out of it. -/
theorem valid_of_derived {α : Type} (parse : EffectiveResourceRow → Option α) {type : ResourceType} {reason : String}
    {rows out : List EffectiveResourceRow} (hparse : ∀ row bundle, parse { row with skillBundle := bundle } = parse row)
    (h : Derived (markRows type reason (fun row => isEnabled row && (parse row).isNone) rows).1 out) :
    ∀ row ∈ out, isEnabled row = true → (parse row).isSome = true := by
  intro row hrow henabled
  obtain ⟨row', hrow', henabled', heq⟩ := h row hrow henabled
  rw [heq, hparse]
  obtain ⟨row'', _, rfl⟩ := List.mem_map.1 hrow'
  split at henabled'
  · simp at henabled'
  · rename_i hvalid
    rw [if_neg hvalid]
    simp only [henabled', Bool.true_and, Option.isNone_iff_eq_none] at hvalid
    exact Option.isSome_iff_ne_none.2 hvalid

/-- The enabled Skills are valid, and have the id of a resource. -/
theorem finalSkills_valid {env : ResourceEnvironment} {q : ResourceQueries} {row : EffectiveResourceRow}
    (hrow : row ∈ finalSkills env q) (henabled : isEnabled row = true) :
    (rowSkill row).isSome = true ∧ (filledId row.resourceId).isSome = true := by
  have hvalid : (rowSkill row).isSome = true :=
    valid_of_derived rowSkill (fun _ _ => rfl) (derived_markGroups _ _ _ _) row hrow henabled
  refine ⟨hvalid, ?_⟩
  obtain ⟨row', hrow', henabled', heq⟩ := derived_finalSkills env q row hrow henabled
  rw [heq] at hvalid ⊢
  change (filledId row'.resourceId).isSome = true
  refine bucket_filledId hrow' henabled' ?_
  cases hpayload : row'.payload with
  | none => simp [rowSkill, hpayload] at hvalid
  | some payload => rfl

/-- The enabled MCP servers are valid. -/
theorem finalMcp_valid {env : ResourceEnvironment} {q : ResourceQueries} {row : EffectiveResourceRow} (hrow : row ∈ finalMcp env q)
    (henabled : isEnabled row = true) : (rowMcp env row).isSome = true :=
  valid_of_derived (rowMcp env) (fun _ _ => rfl) (derived_markGroups _ _ _ _) row hrow henabled

/-- The targets of the enabled Skills are those that the pass counted. -/
theorem skillTargets_eq (env : ResourceEnvironment) (q : ResourceQueries) :
    ((finalSkills env q).filter isEnabled).filterMap (fun row => (rowSkill row).bind fun skill => skillTarget env skill.name) =
      (finalSkills env q).filterMap (rowTarget env) := by
  rw [List.filterMap_filter]
  refine List.filterMap_congr fun row hrow => ?_
  unfold rowTarget
  cases henabled : isEnabled row with
  | false => simp
  | true =>
    simp only [(finalSkills_valid hrow henabled).2, Bool.and_self, if_true]

/-- The targets of the enabled Skills are different. -/
theorem skillTargets_nodup (env : ResourceEnvironment) (q : ResourceQueries) :
    (((finalSkills env q).filter isEnabled).filterMap fun row =>
      (rowSkill row).bind fun skill => skillTarget env skill.name).Nodup := by
  rw [skillTargets_eq]
  exact markGroups_nodup _ _ _ _ fun _ => rfl

/-! ## MCP servers -/

/-- A required text is in its field, and accepted. -/
theorem requiredText_eq_some {payload : Json} {field : String} {ok : List Char → Bool} {t : List Char}
    (h : requiredText payload field ok = some t) : ∃ s : String, payload.field? field = some (.str s) ∧ t = s.toList ∧
      ok t = true := by
  unfold requiredText at h
  split at h
  · rename_i s hfield
    split at h
    · rename_i hok
      cases h
      exact ⟨s, hfield, rfl, hok⟩
    · cases h
  · cases h

/-- The name of a server is in its payload, and not empty. -/
theorem parseMcpPayload_name {env : ResourceEnvironment} {payload : Json} {server : NoSecretMcpServer}
    (h : parseMcpPayload env payload = some server) :
    ∃ s : String, payload.field? "name" = some (.str s) ∧ server.name = s.toList ∧ server.name ≠ [] := by
  have hname : ∃ ok : List Char → Bool, ok [] = false ∧ requiredText payload "name" ok = some server.name := by
    unfold parseMcpPayload at h
    split at h
    · simp only [Option.bind_eq_bind, Option.bind_eq_some_iff] at h
      obtain ⟨name, hname, _, _, h⟩ := h
      split at h
      · cases h
        exact ⟨isMcpName, rfl, hname⟩
      · cases h
    · simp only [Option.bind_eq_bind, Option.bind_eq_some_iff] at h
      obtain ⟨name, hname, _, _, h⟩ := h
      split at h
      · cases h
        exact ⟨isFilled, rfl, hname⟩
      · cases h
    · simp only [Option.bind_eq_bind, Option.bind_eq_some_iff] at h
      obtain ⟨name, hname, _, _, h⟩ := h
      split at h
      · cases h
        exact ⟨isFilled, rfl, hname⟩
      · cases h
    · cases h
  obtain ⟨ok, hempty, hname⟩ := hname
  obtain ⟨s, hfield, htext, hok⟩ := requiredText_eq_some hname
  refine ⟨s, hfield, htext, fun hnil => ?_⟩
  rw [hnil, hempty] at hok
  cases hok

/-- The folded name that the pass counts is that of the server. -/
theorem rowMcpName_eq {env : ResourceEnvironment} {row : EffectiveResourceRow} {server : NoSecretMcpServer}
    (henabled : isEnabled row = true) (h : rowMcp env row = some server) :
    rowMcpName env row = some (env.unicode.toLowerCase server.name) := by
  obtain ⟨payload, hpayload, hparse⟩ := Option.bind_eq_some_iff.1 h
  obtain ⟨s, hfield, hname, hne⟩ := parseMcpPayload_name hparse
  have hfilled : isFilled (env.unicode.toLowerCase s.toList) = true := by
    have := env.toLowerCase_ne_nil _ (hname ▸ hne)
    simpa [isFilled] using this
  simp [rowMcpName, henabled, hpayload, hfield, hname, Option.filter, hfilled]

/-- The names of the enabled MCP servers are those that the pass counted. -/
theorem mcpNames_eq (env : ResourceEnvironment) (q : ResourceQueries) :
    ((finalMcp env q).filter isEnabled).filterMap
      (fun row => (rowMcp env row).map fun server => env.unicode.toLowerCase server.name) =
      (finalMcp env q).filterMap (rowMcpName env) := by
  rw [List.filterMap_filter]
  refine List.filterMap_congr fun row hrow => ?_
  cases henabled : isEnabled row with
  | false => simp [rowMcpName, henabled]
  | true =>
    obtain ⟨server, hserver⟩ := Option.isSome_iff_exists.1 (finalMcp_valid hrow henabled)
    rw [rowMcpName_eq henabled hserver, hserver]
    simp

/-- The names of the enabled MCP servers are different. -/
theorem mcpNames_nodup (env : ResourceEnvironment) (q : ResourceQueries) :
    (((finalMcp env q).filter isEnabled).filterMap fun row =>
      (rowMcp env row).map fun server => env.unicode.toLowerCase server.name).Nodup := by
  rw [mcpNames_eq]
  exact markGroups_nodup _ _ _ _ fun _ => rfl

/-- A function that answers for every element answers for the list. -/
theorem mapM_eq_filterMap {α β : Type} {f : α → Option β} {l : List α} (h : ∀ x ∈ l, (f x).isSome = true) :
    l.mapM f = some (l.filterMap f) := by
  induction l with
  | nil => rfl
  | cons x l ih =>
    obtain ⟨y, hy⟩ := Option.isSome_iff_exists.1 (h x List.mem_cons_self)
    rw [List.mapM_cons, ih fun x hx => h x (List.mem_cons_of_mem _ hx), hy, List.filterMap_cons_some hy]
    rfl

/-! ## Prompts -/

/-- The length of two texts. -/
theorem utf16Length_append (s t : List Char) : utf16Length (s ++ t) = utf16Length s + utf16Length t := by
  simp [utf16Length]

/-- A part of a text is not longer. -/
theorem utf16Length_sublist {s t : List Char} (h : s.Sublist t) : utf16Length s ≤ utf16Length t := by
  induction h with
  | slnil => exact le_refl _
  | cons c _ ih => exact le_trans ih (by simp [utf16Length])
  | cons_cons c _ ih =>
    simp only [utf16Length, List.map_cons, List.sum_cons] at ih ⊢
    omega

/-- A trimmed text is not longer. -/
theorem utf16Length_trim (t : List Char) : utf16Length (ContextSourceLink.trim t) ≤ utf16Length t :=
  utf16Length_sublist (Trimming.trim_sublist ShellCommandIo.isSpace t)

/-- Within the budget, what the loop leaves enabled stays within it. -/
theorem budgetLoop_le (combined : List Char) (overflow : Bool) (rows : List EffectiveResourceRow)
    (h : utf16Length combined ≤ promptAppendMaxLength) :
    utf16Length (combined ++ ((budgetLoop combined overflow rows).1.filter isEnabled).flatMap renderedRow) ≤
      promptAppendMaxLength := by
  induction rows generalizing combined overflow with
  | nil => simpa [budgetLoop] using h
  | cons row rows ih =>
    simp only [budgetLoop]
    split
    · rename_i hdisabled
      simp only [Bool.not_eq_true'] at hdisabled
      simp only [List.filter_cons, hdisabled, Bool.false_eq_true, if_false]
      exact ih combined overflow h
    · rename_i henabled
      simp only [Bool.not_eq_true', Bool.not_eq_false] at henabled
      split
      · simp only [List.filter_cons, isEnabled_unavailableRow, Bool.false_eq_true, if_false]
        exact ih combined true h
      · rename_i hfits
        simp only [Bool.or_eq_true, decide_eq_true_eq, not_or, not_lt] at hfits
        simp only [List.filter_cons, henabled, if_true, List.flatMap_cons]
        rw [← List.append_assoc]
        refine ih (combined ++ renderedRow row) overflow ?_
        rw [utf16Length_append]
        exact hfits.2

/-- The loop leaves rows in their order. -/
theorem budgetLoop_order (combined : List Char) (overflow : Bool) (rows : List EffectiveResourceRow) :
    (budgetLoop combined overflow rows).1.map (·.order) = rows.map (·.order) := by
  induction rows generalizing combined overflow with
  | nil => rfl
  | cons row rows ih =>
    simp only [budgetLoop]
    split
    · simp [ih]
    · split
      · simp [ih, unavailableRow]
      · simp [ih]

/-- Rows whose orders do not fall are sorted. -/
theorem sortRows_eq {rows : List EffectiveResourceRow} (h : rows.Pairwise fun a b => a.order ≤ b.order) : sortRows rows = rows :=
  List.Pairwise.insertionSort_eq h

/-- The prompts of a result are sorted. -/
theorem prompts_sorted (rows : List EffectiveResourceRow) : (applyPromptBudget rows).1.Pairwise fun a b => a.order ≤ b.order := by
  have hsorted : (sortRows rows).Pairwise fun a b => a.order ≤ b.order :=
    have : Std.Total fun a b : EffectiveResourceRow => a.order ≤ b.order := ⟨fun a b => le_total a.order b.order⟩
    have : IsTrans EffectiveResourceRow fun a b => a.order ≤ b.order := ⟨fun _ _ _ => le_trans⟩
    List.pairwise_insertionSort _ rows
  rw [← List.pairwise_map (f := fun row : EffectiveResourceRow => row.order) (R := (· ≤ ·))] at hsorted ⊢
  rwa [applyPromptBudget, budgetLoop_order]

/-- The appended prompts are the rendering of the enabled rows with a body. -/
theorem append_eq (rows : List EffectiveResourceRow) :
    runtimePromptAppend (applyPromptBudget rows).1 =
      ContextSourceLink.trim ((promptRows (applyPromptBudget rows).1).flatMap renderedRow) := by
  rw [runtimePromptAppend, sortRows_eq]
  exact (prompts_sorted rows).filter _

/-- Fewer rows have fewer renderings. -/
theorem renderedRow_sublist {rows rows' : List EffectiveResourceRow} (h : rows.Sublist rows') :
    (rows.flatMap renderedRow).Sublist (rows'.flatMap renderedRow) := by
  induction h with
  | slnil => exact List.Sublist.refl _
  | cons row _ ih => exact ih.trans (List.sublist_append_right _ _)
  | cons_cons row _ ih => exact (List.Sublist.refl _).append ih

/-- The appended prompts are within the budget. -/
theorem append_le (rows : List EffectiveResourceRow) :
    utf16Length (runtimePromptAppend (applyPromptBudget rows).1) ≤ promptAppendMaxLength := by
  rw [append_eq]
  refine le_trans (utf16Length_trim _) ?_
  refine le_trans (utf16Length_sublist ?_) (budgetLoop_le [] false (sortRows rows) (Nat.zero_le _))
  rw [List.nil_append]
  refine renderedRow_sublist ?_
  unfold promptRows
  rw [show (fun row => isEnabled row && (filled row.promptBody).isSome) =
    fun row => (filled row.promptBody).isSome && isEnabled row from funext fun row => Bool.and_comm _ _, ← List.filter_filter]
  exact List.filter_sublist

/-! ## The runtime config -/

/-- The MCP servers of the result are read, under their names. -/
theorem runtimeMcp_spec (env : ResourceEnvironment) (q : ResourceQueries) :
    ∃ servers, runtimeMcp env (finalMcp env q) = some servers ∧
      (servers.map fun server => env.unicode.toLowerCase server.name).Nodup := by
  refine ⟨((finalMcp env q).filter isEnabled).filterMap (rowMcp env), ?_, ?_⟩
  · exact mapM_eq_filterMap fun row hrow => finalMcp_valid (List.mem_filter.1 hrow).1 (List.mem_filter.1 hrow).2
  · rw [List.map_filterMap]
    exact mcpNames_nodup env q

/-- The Skills of the result are read, with their targets. -/
theorem runtimeSkills_spec (env : ResourceEnvironment) (q : ResourceQueries) :
    ∃ skills, runtimeSkills (finalSkills env q) = some skills ∧
      (skills.filterMap fun skill => skillTarget env skill.skill.name).Nodup := by
  refine ⟨_, mapM_eq_filterMap fun row hrow => ?_, ?_⟩
  · obtain ⟨hmem, henabled⟩ := List.mem_filter.1 hrow
    simp only [Bool.and_eq_true] at henabled
    rw [Option.isSome_map]
    exact (finalSkills_valid hmem henabled.1).1
  · have htargets := skillTargets_nodup env q
    rw [skillTargets_eq] at htargets
    rw [List.filterMap_filterMap, List.filterMap_filter]
    convert htargets using 1
    refine List.filterMap_congr fun row _ => ?_
    unfold rowTarget
    split
    · cases rowSkill row <;> simp
    · rfl

/-- The config is built, and its names are different. -/
theorem config_sound (env : ResourceEnvironment) (q : ResourceQueries)
    (hpathless : ((bucket env q .repo).filter isPathless).length ≤ 1) (stored : StoredMcpServers env) :
    ∃ config, resolveRuntimeConfig env q stored = some config ∧
      ConfigSound env (resolveEffectiveResources env q).prompts config := by
  obtain ⟨servers, hmcp, hnames⟩ := runtimeMcp_spec env q
  obtain ⟨skills, hskills, htargets⟩ := runtimeSkills_spec env q
  have hconfig : resolveRuntimeConfig env q stored =
      some (runtimeConfigOf env (resolveEffectiveResources env q) stored servers skills) := by
    unfold resolveRuntimeConfig
    change ((runtimeMcp env (finalMcp env q)).bind fun resolvedMcp => (runtimeSkills (finalSkills env q)).bind fun resourceSkills =>
      some (runtimeConfigOf env (resolveEffectiveResources env q) stored resolvedMcp resourceSkills)) = _
    rw [hmcp, hskills, Option.bind_some, Option.bind_some]
  refine ⟨_, hconfig, ?_, htargets, ?_, append_le _, append_eq _⟩
  · have hrepos := (repos_nodup_iff (bucket env q .repo)).2 hpathless
    rw [runtimeConfigOf, List.map_filterMap]
    exact hrepos
  · simp only [runtimeConfigOf]
    split
    · exact stored.nodup
    · exact hnames

/-! ## Team resources that bindings name -/

/-- The rows of the result come out of the buckets. -/
theorem allRows_derived {env : ResourceEnvironment} {q : ResourceQueries} {row : EffectiveResourceRow}
    (hrow : row ∈ allRows (resolveEffectiveResources env q)) (henabled : isEnabled row = true) :
    ∃ type row', row' ∈ bucket env q type ∧ isEnabled row' = true ∧ row.resourceId = row'.resourceId := by
  have hof : ∀ {type out}, Derived (bucket env q type) out → row ∈ out →
      ∃ type row', row' ∈ bucket env q type ∧ isEnabled row' = true ∧ row.resourceId = row'.resourceId := by
    intro type out hderived hmem
    obtain ⟨row', hrow', henabled', heq⟩ := hderived row hmem henabled
    exact ⟨type, row', hrow', henabled', by rw [heq]⟩
  rcases List.mem_append.1 hrow with hrow | hmcp
  · rcases List.mem_append.1 hrow with hrow | hskills
    · rcases List.mem_append.1 hrow with hrepos | hprompts
      · exact hof ((derived_sortRows _).trans (derived_dedupLoop [] _)) hrepos
      · exact hof ((derived_sortRows _).trans (derived_budgetLoop [] false _)) hprompts
    · exact hof (derived_finalSkills env q) hskills
  · exact hof (derived_finalMcp env q) hmcp

/-- A resource that is enabled is recommended and named by no binding, or bound by one. -/
theorem enabled_resource {env : ResourceEnvironment} {q : ResourceQueries} {row : EffectiveResourceRow} {id : String}
    (hrow : row ∈ allRows (resolveEffectiveResources env q)) (henabled : isEnabled row = true) (hid : row.resourceId = some id) :
    (∀ b ∈ q.bindings, disables b id = false ∧ replaces b id = false) ∨ ∃ b ∈ q.bindings, binds b id = true := by
  obtain ⟨type, row', hrow', henabled', hsame⟩ := allRows_derived hrow henabled
  rw [hsame] at hid
  rcases bucket_enabled hrow' henabled' with ⟨r, hr, rfl⟩ | ⟨b, hb, hmode, rfl⟩
  · left
    obtain rfl : r.id = id := Option.some.inj hid
    intro b hb
    have hfree := (List.mem_filter.1 hr).2
    simp only [Bool.and_eq_true, Bool.not_eq_true', List.any_eq_false, Bool.or_eq_true, not_or, Bool.not_eq_true] at hfree
    exact (hfree.2 b hb).1
  · right
    refine ⟨b, hb, ?_⟩
    obtain ⟨r, hr, rfl⟩ := Option.map_eq_some_iff.1 (show (boundResource (selected q) b).map (·.id) = some id from hid)
    obtain ⟨x, hx, hbyId⟩ := Option.bind_eq_some_iff.1 hr
    obtain rfl := (byId_spec hbyId).2
    simp [binds, hmode, hx]

/-! ## The order of the resource rows -/

/-- With ids that are a key, a row is found exactly when it is there. -/
theorem byId_eq_some_iff {rows : List ResourceDbRow} (hnodup : (rows.map (·.id)).Nodup) {id : String} {r : ResourceDbRow} :
    byId rows id = some r ↔ r ∈ rows ∧ r.id = id := by
  refine ⟨byId_spec, fun ⟨hmem, hid⟩ => ?_⟩
  have hsome : (byId rows id).isSome = true := by
    rw [byId, List.find?_isSome]
    exact ⟨r, List.mem_reverse.2 hmem, by simpa using hid⟩
  obtain ⟨r', hr'⟩ := Option.isSome_iff_exists.1 hsome
  obtain ⟨hmem', hid'⟩ := byId_spec hr'
  rw [hr', List.inj_on_of_nodup_map hnodup hmem' hmem (hid'.trans hid.symm)]

/-- What is found does not depend on the order. -/
theorem byId_perm {rows rows' : List ResourceDbRow} (h : rows.Perm rows')
    (hnodup : (rows'.map (·.id)).Nodup) : byId rows = byId rows' := by
  funext id
  refine Option.ext fun r => ?_
  rw [byId_eq_some_iff hnodup, byId_eq_some_iff ((h.map _).nodup_iff.2 hnodup), h.mem_iff]

section Reordered

variable {env : ResourceEnvironment} {q : ResourceQueries} {rows : List ResourceDbRow} (h : rows.Perm q.resources)

/-- The selected rows in another order. -/
theorem selected_perm : (selected (q.reordered rows h)).Perm (selected q) := h.filter _

/-- The recommended resources in another order. -/
theorem recommended_perm : (recommended (q.reordered rows h)).Perm (recommended q) := (selected_perm h).filter _

/-- The ids of the selected rows are a key. -/
theorem selected_nodup (q : ResourceQueries) : ((selected q).map (·.id)).Nodup :=
  (List.filter_sublist.map _).nodup q.resources_nodup

/-- What is found among the selected rows does not depend on their order. -/
theorem byId_reordered : byId (selected (q.reordered rows h)) = byId (selected q) := byId_perm (selected_perm h) (selected_nodup q)

/-- The rows of the bindings do not depend on the order. -/
theorem bindingRows_reordered : bindingRows env (selected (q.reordered rows h)) = bindingRows env (selected q) := by
  have hbound : boundResource (selected (q.reordered rows h)) = boundResource (selected q) := by
    funext b
    rw [boundResource, boundResource, byId_reordered h]
  have hreplaced : replacedResource (selected (q.reordered rows h)) = replacedResource (selected q) := by
    funext b
    rw [replacedResource, replacedResource, byId_reordered h]
  funext b
  simp only [bindingRows, enabledRow, hbound, hreplaced]

/-- The bundles do not depend on the order. -/
theorem bundles_reordered : applySkillBundleAvailability (q.reordered rows h) = applySkillBundleAvailability q := by
  have hbundle : bundleOf (selected (q.reordered rows h)) = bundleOf (selected q) := by
    funext id
    rw [bundleOf, bundleOf, byId_perm ((selected_perm h).filter _) ((List.filter_sublist.map _).nodup (selected_nodup q))]
  have hrow : rowBundle (q.reordered rows h) = rowBundle q := by
    funext row
    rw [rowBundle, rowBundle, hbundle]
  funext skills
  simp only [applySkillBundleAvailability, hrow]
  rfl

/-- A list of one element at most has one order. -/
theorem perm_eq_of_length_le_one {α : Type} {l l' : List α} (h : l.Perm l') (hone : l'.length ≤ 1) : l = l' := by
  match l', hone with
  | [], _ => exact h.eq_nil
  | [x], _ => exact List.perm_singleton.1 h

/-- With one recommended resource at most, a bucket does not depend on the order. -/
theorem bucket_reordered {type : ResourceType} (hone : ((recommended q).filter fun r => decide (r.type = type)).length ≤ 1) :
    bucket env (q.reordered rows h) type = bucket env q type := by
  have hperm := (recommended_perm h).filter fun r => decide (r.type = type)
  have heq : (recommended (q.reordered rows h)).filter (fun r => decide (r.type = type)) =
      (recommended q).filter fun r => decide (r.type = type) := perm_eq_of_length_le_one hperm hone
  have hmap : ∀ q : ResourceQueries, ((recommended q).map (recommendedRow env)).filter (fun row => decide (row.type = type)) =
      ((recommended q).filter fun r => decide (r.type = type)).map (recommendedRow env) := by
    intro q
    rw [List.filter_map]
    rfl
  rw [bucket, bucket, List.filter_append, List.filter_append, hmap, hmap, heq, bindingRows_reordered h]
  rfl

/-- With one recommended resource at most in each bucket, the result does not depend on the order. -/
theorem resolve_reordered (hone : ∀ type : ResourceType, ((recommended q).filter fun r => decide (r.type = type)).length ≤ 1) :
    resolveEffectiveResources env (q.reordered rows h) = resolveEffectiveResources env q := by
  simp only [resolveEffectiveResources, bucket_reordered h (hone _), bundles_reordered h]
  rfl

end Reordered

/-! ## What the order decides -/

/-- The binding and the resource of a row. -/
def identOf (row : EffectiveResourceRow) : Option String × Option String := (row.bindingId, row.resourceId)

/-- The resources of the rows without a binding. -/
def unboundIds (rows : List EffectiveResourceRow) : List (Option String) :=
  ((rows.map identOf).filter fun ident => ident.1.isNone).map (·.2)

/-- The resources without a binding depend on whose the rows are. -/
theorem unboundIds_congr {rows rows' : List EffectiveResourceRow} (h : rows.map identOf = rows'.map identOf) :
    unboundIds rows = unboundIds rows' := by
  rw [unboundIds, unboundIds, h]

/-- The loop of the budget keeps whose the rows are. -/
theorem budgetLoop_ident (combined : List Char) (overflow : Bool) (rows : List EffectiveResourceRow) :
    (budgetLoop combined overflow rows).1.map identOf = rows.map identOf := by
  induction rows generalizing combined overflow with
  | nil => rfl
  | cons row rows ih =>
    simp only [budgetLoop]
    split
    · simp [ih]
    · split
      · simp [ih, identOf, unavailableRow]
      · simp [ih]

/-- The loop of the paths keeps whose the rows are. -/
theorem dedupLoop_ident (seen : List (List Char)) (rows : List EffectiveResourceRow) :
    (dedupLoop seen rows).1.map identOf = rows.map identOf := by
  induction rows generalizing seen with
  | nil => rfl
  | cons row rows ih =>
    simp only [dedupLoop]
    split
    · simp [ih]
    · split
      · simp [ih, identOf, unavailableRow]
      · simp [ih]

/-- A pass that makes some rows unavailable keeps whose they are. -/
theorem map_ident (p : EffectiveResourceRow → Bool) (reason : String) (rows : List EffectiveResourceRow) :
    (rows.map fun row => if p row then unavailableRow reason row else row).map identOf = rows.map identOf := by
  rw [List.map_map]
  refine List.map_congr_left fun row _ => ?_
  simp only [Function.comp]
  split <;> rfl

/-- The pass over the bundles keeps whose the rows are. -/
theorem bundles_ident (q : ResourceQueries) (rows : List EffectiveResourceRow) :
    (applySkillBundleAvailability q rows).1.map identOf = rows.map identOf := by
  refine Eq.trans ?_ (map_ident (fun row => (rowBundle q row).any fun bundleId => (readyBundle q bundleId).isNone)
    "skill_bundle_unavailable" rows)
  simp only [applySkillBundleAvailability, markRows]
  rw [List.map_map]
  refine List.map_congr_left fun row _ => ?_
  simp only [Function.comp]
  split <;> rfl

/-- The rows of a result for a type. -/
def rowsOf (r : EffectiveAgentResources) : ResourceType → List EffectiveResourceRow
  | .repo => r.repos
  | .prompt => r.prompts
  | .skill => r.skills
  | .mcp => r.mcp

/-- In a bucket, the rows without a binding are those of the recommended resources. -/
theorem bucket_unbound (env : ResourceEnvironment) (q : ResourceQueries) (type : ResourceType) :
    (bucket env q type).filter (fun row => row.bindingId.isNone) =
      ((recommended q).filter fun r => decide (r.type = type)).map (recommendedRow env) := by
  have hbound : (q.bindings.flatMap (bindingRows env (selected q))).filter
      (fun row => row.bindingId.isNone && decide (row.type = type)) = [] := by
    refine List.filter_eq_nil_iff.2 fun row hrow => ?_
    obtain ⟨b, _, hrow⟩ := List.mem_flatMap.1 hrow
    have hsome : row.bindingId = some b.id := by
      unfold bindingRows at hrow
      split at hrow
      · obtain ⟨resource, _, rfl⟩ := Option.map_eq_some_iff.1 (Option.mem_toList.1 hrow)
        rfl
      · rcases List.mem_append.1 hrow with hrow | hrow
        · split at hrow
          · obtain ⟨resource, _, rfl⟩ := Option.map_eq_some_iff.1 (Option.mem_toList.1 hrow)
            rfl
          · simp at hrow
        · split at hrow
          · simp at hrow
          · rw [List.mem_singleton.1 hrow]
            rfl
    simp [hsome]
  rw [bucket, List.filter_filter, List.filter_append, hbound, List.append_nil, List.filter_map]
  rfl

/-- A stable sort keeps the order of the rows without a binding. -/
theorem sortRows_unbound (env : ResourceEnvironment) (q : ResourceQueries) (type : ResourceType) :
    (sortRows (bucket env q type)).filter (fun row => row.bindingId.isNone) =
      (bucket env q type).filter fun row => row.bindingId.isNone := by
  have hsorted : ((bucket env q type).filter fun row => row.bindingId.isNone).Pairwise fun a b => a.order ≤ b.order := by
    rw [bucket_unbound]
    exact List.pairwise_map.2 (List.pairwise_of_forall fun _ _ => le_refl (0 : Int))
  have : Std.Total fun a b : EffectiveResourceRow => a.order ≤ b.order := ⟨fun a b => le_total a.order b.order⟩
  have : IsTrans EffectiveResourceRow fun a b => a.order ≤ b.order := ⟨fun _ _ _ => le_trans⟩
  have hsub := (List.sublist_insertionSort hsorted List.filter_sublist).filter fun row : EffectiveResourceRow => row.bindingId.isNone
  rw [List.filter_filter] at hsub
  simp only [Bool.and_self] at hsub
  exact (hsub.eq_of_length (((perm_sortRows _).filter _).length_eq).symm).symm

/-- In a result, the rows without a binding are those of the recommended resources, in their order. -/
theorem unboundIds_rowsOf (env : ResourceEnvironment) (q : ResourceQueries) (type : ResourceType) :
    unboundIds (rowsOf (resolveEffectiveResources env q) type) =
      ((recommended q).filter fun r => decide (r.type = type)).map fun r => some r.id := by
  have hunbound : ∀ rows : List EffectiveResourceRow,
      unboundIds rows = (rows.filter fun row => row.bindingId.isNone).map (·.resourceId) := by
    intro rows
    rw [unboundIds, List.filter_map, List.map_map]
    rfl
  have hbucket : ((bucket env q type).filter fun row => row.bindingId.isNone).map (·.resourceId) =
      ((recommended q).filter fun r => decide (r.type = type)).map fun r => some r.id := by
    rw [bucket_unbound, List.map_map]
    rfl
  have hsorted : ((sortRows (bucket env q type)).filter fun row => row.bindingId.isNone).map (·.resourceId) =
      ((recommended q).filter fun r => decide (r.type = type)).map fun r => some r.id := by
    rw [sortRows_unbound, hbucket]
  cases type with
  | repo =>
    rw [← hsorted, ← hunbound]
    exact unboundIds_congr (dedupLoop_ident [] _)
  | prompt =>
    rw [← hsorted, ← hunbound]
    exact unboundIds_congr (budgetLoop_ident [] false _)
  | skill =>
    rw [← hbucket, ← hunbound]
    exact unboundIds_congr ((map_ident _ _ _).trans ((map_ident _ _ _).trans (bundles_ident q _)))
  | mcp =>
    rw [← hbucket, ← hunbound]
    exact unboundIds_congr ((map_ident _ _ _).trans (map_ident _ _ _))

/-- A list of different elements that is its own reverse has one at most. -/
theorem length_le_one_of_reverse {α : Type} {l : List α} (hnodup : l.Nodup) (h : l.reverse = l) : l.length ≤ 1 := by
  by_contra hlong
  match l, hlong with
  | a :: b :: rest, _ =>
    -- The first element is the last, so it occurs after itself.
    have hlast : (a :: b :: rest).getLast? = some a := by
      rw [← h, List.getLast?_reverse]
      rfl
    rw [List.getLast?_cons_cons] at hlast
    exact (List.nodup_cons.1 hnodup).1 (List.mem_of_getLast? hlast)
  | [_], hlong | [], hlong => exact hlong (by simp)

/-- A result that does not depend on the order has one recommended resource at most in each bucket. -/
theorem recommended_of_order {env : ResourceEnvironment} {q : ResourceQueries}
    (h : ∀ rows (h : rows.Perm q.resources), resolveEffectiveResources env (q.reordered rows h) = resolveEffectiveResources env q)
    (type : ResourceType) : ((recommended q).filter fun r => decide (r.type = type)).length ≤ 1 := by
  have hreverse : recommended (q.reordered q.resources.reverse (List.reverse_perm _)) = (recommended q).reverse := by
    rw [recommended, recommended, selected, selected, ResourceQueries.reordered, List.filter_reverse, List.filter_reverse]
  have hids := congrArg (fun r => unboundIds (rowsOf r type)) (h q.resources.reverse (List.reverse_perm _))
  simp only [unboundIds_rowsOf, hreverse, List.filter_reverse, List.map_reverse] at hids
  have hnodup : (((recommended q).filter fun r => decide (r.type = type)).map fun r => some r.id).Nodup := by
    have hsub : (((recommended q).filter fun r => decide (r.type = type)).map (·.id)).Nodup :=
      ((List.filter_sublist.trans List.filter_sublist).map _).nodup (selected_nodup q)
    have := hsub.map (Option.some_injective String)
    rwa [List.map_map] at this
  simpa using length_le_one_of_reverse hnodup hids

end EffectiveResourcesAux

open EffectiveResourcesAux

/-- Where no binding is alone in binding what it replaces, the result is sound exactly when every bucket has at most one
recommended Team resource and at most one repo is without a path; and it is sound nowhere else. -/
theorem resources_sound_iff (env : ResourceEnvironment) (q : ResourceQueries) :
    (NoSelfReplacement q → (ResourcesSound env q ↔ OrderFixed env q)) ∧ (ResourcesSound env q → OrderFixed env q) := by
  have honly : ResourcesSound env q → OrderFixed env q := fun hsound =>
    ⟨recommended_of_order fun rows h => (hsound.order rows h).1, (repos_nodup_iff (bucket env q .repo)).1 hsound.repos⟩
  refine ⟨fun hself => ⟨honly, fun hfixed => ?_⟩, honly⟩
  refine ⟨(repos_nodup_iff (bucket env q .repo)).2 hfixed.pathless, skillTargets_nodup env q, mcpNames_nodup env q,
    config_sound env q hfixed.pathless, ?_, fun rows h => ?_⟩
  · intro r hr hteam b hb hnames hothers row hrow henabled hid
    rcases enabled_resource hrow henabled hid with hfree | ⟨b', hb', hbinds⟩
    · rcases hnames with hdisables | hreplaces
      · rw [(hfree b hb).1] at hdisables
        cases hdisables
      · rw [(hfree b hb).2] at hreplaces
        cases hreplaces
    · -- The binding that binds the resource can only be the one that disables or replaces it.
      obtain rfl : b' = b := by
        by_contra hne
        have hid' : b'.id ≠ b.id := fun heq => hne (List.inj_on_of_nodup_map q.bindings_nodup hb' hb heq)
        rw [hothers b' hb' hid'] at hbinds
        cases hbinds
      rcases hnames with hdisables | hreplaces
      · simp only [disables, binds, Bool.and_eq_true, beq_iff_eq, bne_iff_ne] at hdisables hbinds
        exact hbinds.1 hdisables.1
      · obtain ⟨b'', hb'', hne, hbinds''⟩ := hself r hr hteam b' hb hreplaces hbinds
        rw [hothers b'' hb'' hne] at hbinds''
        cases hbinds''
  · have hresolve : resolveEffectiveResources env (q.reordered rows h) = resolveEffectiveResources env q :=
      resolve_reordered h hfixed.recommended
    refine ⟨hresolve, fun stored => ?_⟩
    rw [resolveRuntimeConfig, resolveRuntimeConfig, hresolve]

/-- An environment without URL parsers, where texts have one case and one normal form. -/
def plainResourceEnvironment : ResourceEnvironment where
  platform := ⟨⟨fun _ => none, fun _ => none, fun _ _ => none, false⟩, id⟩
  unicode := ⟨fun t => t, fun t => t, fun t => t, fun t => t, fun _ _ => rfl, fun _ _ => rfl, fun _ _ => rfl, fun _ _ => rfl⟩
  isMcpUrl := fun _ => false
  toLowerCase_ne_nil := fun _ h => h

/-- A recommended repo of a team. -/
def recommendedRepo (id : String) (url : String) : ResourceDbRow :=
  ⟨id, "o", .repo, .team, none, id.toList, none, some .recommended, .active, .obj [("url", .str url)], none⟩

/-- Two recommended repos with one path. -/
def twoRepos : ResourceQueries where
  agentId := "a"
  organizationId := "o"
  version := 1
  resources := [recommendedRepo "r1" "h1:x/app", recommendedRepo "r2" "h2:y/app"]
  bindings := []
  attachments := []
  resources_nodup := by decide
  resources_filled := by decide
  bindings_nodup := by decide

/-- Which of two repos with one path is on depends on the order of the rows. -/
theorem two_repos_depend_on_order : ¬ ∀ env q, ResourcesSound env q := by
  intro hall
  have horder := ((hall plainResourceEnvironment twoRepos).order twoRepos.resources.reverse (List.reverse_perm _)).1
  have henabled : ((resolveEffectiveResources plainResourceEnvironment twoRepos).repos.filter isEnabled).map (·.resourceId) =
      [some "r1"] := by
    decide
  rw [← horder] at henabled
  exact absurd henabled (by decide)

end FirstTree
