import Mathlib.Data.List.Infix
import FirstTree.Lib.SelfDelimiting
import FirstTree.Lib.Trimming
import FirstTree.Shared.ContextTreeRepository
import FirstTree.Theorems.ContextSourceLink

/-!
# The canonical identity of a repository

Host and path of an identity are lowercase and the path starts with no slash. One `.git` is removed and slashes are trimmed once,
before it: unless what stands before the `.git` ends in a slash or in `.git` again, the path ends in neither, and then the
`https`, `ssh` and scp forms of host and path name the same identity exactly when URLs read host and path as they are written. Two
references are the same repository when they have one key in common, which the rule of the provider gives to the references it
accepts.
-/

namespace FirstTree

open ContextSourceLink ContextTreeRepository

/-- What is documented of lowercasing a text: doing it again changes nothing, a slash stays and separates what is lowercased, and no
text vanishes. -/
structure Platform.LowersTexts (p : Platform) : Prop where
  idempotent : ∀ t, p.toLowerCase (p.toLowerCase t) = p.toLowerCase t
  slash : ∀ a b, p.toLowerCase (a ++ '/' :: b) = p.toLowerCase a ++ '/' :: p.toLowerCase b
  noSlash : ∀ t, '/' ∈ p.toLowerCase t → '/' ∈ t
  nonempty : ∀ t, p.toLowerCase t = [] → t = []

namespace RepositoryIdentity

/-! ## Identities -/

/-- The host and the path of a reference before they are normalized: those of the scp form, else those of the URL. -/
def repositoryParts (p : Platform) (value : List Char) : Option (List Char × List Char) :=
  match if includesAuthorityMark (trim value) then none else scpLike (trim value) with
  | some parts => some parts
  | none => (WebUrl.parse p.toRuntime (trim value)).bind fun url =>
    if url.hostname = [] then none else some (url.hostname, url.pathname)

/-- A path without the slashes around it. -/
def trimSlashes (path : List Char) : List Char := Trimming.trim (· = '/') path

/-- What stands before the last four characters. -/
def beforeGit (path : List Char) : List Char := path.take (path.length - 4)

/-- The path of a reference ends in `.git`, with a slash or another `.git` before it. -/
def NestedSuffix (p : Platform) (value : List Char) : Prop :=
  ∃ host path, repositoryParts p value = some (host, path) ∧ endsWithGit p (trimSlashes path) = true ∧
    ((beforeGit (trimSlashes path)).getLast? = some '/' ∨ endsWithGit p (beforeGit (trimSlashes path)) = true)

/-- `https://host/path`. -/
def httpsForm (host path : List Char) : List Char := "https://".toList ++ host ++ '/' :: path

/-- `ssh://git@host/path`. -/
def sshForm (host path : List Char) : List Char := "ssh://git@".toList ++ host ++ '/' :: path

/-- `git@host:path`. -/
def scpForm (host path : List Char) : List Char := "git@".toList ++ host ++ ':' :: path

/-- The forms of a repository have its canonical key. A host with a colon, an address in brackets, has no scp form. -/
structure FormsAgree (p : Platform) (identity : CanonicalGitRepoIdentity) : Prop where
  https : canonicalGitRepoUrl p (httpsForm identity.host identity.path) = some identity.canonical
  httpsGit : canonicalGitRepoUrl p (httpsForm identity.host (identity.path ++ ".git".toList)) = some identity.canonical
  sshGit : canonicalGitRepoUrl p (sshForm identity.host (identity.path ++ ".git".toList)) = some identity.canonical
  scpGit : ':' ∉ identity.host → canonicalGitRepoUrl p (scpForm identity.host (identity.path ++ ".git".toList)) =
    some identity.canonical

/-- URLs read host and path as they are written: a host that the host parsers keep, characters that a path keeps, and no segment that
moves. A text with `://` in it is a URL, so the scp form has none. -/
def ReadsAsWritten (p : Platform) (identity : CanonicalGitRepoIdentity) : Prop :=
  ∃ name rest, identity.host ++ '/' :: identity.path = name ++ '/' :: rest ∧ p.parseHost name = some name ∧
    (p.parseOpaqueHost name).map p.toLowerCase = some name ∧ rest.head? ≠ some '/' ∧
    (∀ c ∈ rest, c = '/' ∨ WebUrl.isPathChar p.toRuntime c = true) ∧
    (∀ s ∈ rest.splitOn '/', WebUrl.isDotSegment s = false) ∧
    (':' ∉ identity.host → includesAuthorityMark identity.path = false)

/-- The identity of a reference is canonical. -/
structure IsCanonical (p : Platform) (value : List Char) (identity : CanonicalGitRepoIdentity) : Prop where
  canonical : identity.canonical = identity.host ++ '/' :: identity.path
  hostLowercase : p.toLowerCase identity.host = identity.host
  pathLowercase : p.toLowerCase identity.path = identity.path
  noLeadingSlash : identity.path.head? ≠ some '/'
  noTrailingSlash : ¬ NestedSuffix p value → identity.path.getLast? ≠ some '/'
  noGitSuffix : ¬ NestedSuffix p value → ¬ ".git".toList <:+ identity.path
  forms : ¬ NestedSuffix p value → (FormsAgree p identity ↔ ReadsAsWritten p identity)

/-! ## References to one repository -/

/-- The rule of a provider accepts a reference: at GitHub its transports, at a connected GitLab its origin, else every one. -/
def AcceptedBy (p : Platform) (provider : ContextTreeProvider) (origin : Option (List Char)) (value : List Char) : Prop :=
  match provider, origin with
  | .github, _ => isGithubRepositoryTransport p value = true
  | .gitlab, some (c :: origin) => originMatchesConnection p (some (c :: origin)) value = true
  | .gitlab, _ => True

/-- A comparison of references is symmetric and transitive, and reflexive on the references that resolve and are accepted. -/
structure ComparesRepositories (p : Platform) (provider : ContextTreeProvider) (origin : Option (List Char)) : Prop where
  symmetric : ∀ left right, sameContextTreeRepository p provider origin left right = true →
    sameContextTreeRepository p provider origin right left = true
  transitive : ∀ left middle right, sameContextTreeRepository p provider origin left middle = true →
    sameContextTreeRepository p provider origin middle right = true → sameContextTreeRepository p provider origin left right = true
  reflexive : ∀ value, sameContextTreeRepository p provider origin (some value) (some value) = true ↔
    (canonicalGitRepoIdentity p value).isSome ∧ AcceptedBy p provider origin value

end RepositoryIdentity

namespace RepositoryIdentityAux

open RepositoryIdentity ContextSourceLinkAux

variable {p : Platform}

/-! ## Lowercasing around slashes -/

/-- A text that starts with no slash is lowercased to one that starts with none. -/
theorem head_toLowerCase (hl : p.LowersTexts) {t : List Char} (h : t.head? ≠ some '/') : (p.toLowerCase t).head? ≠ some '/' := by
  intro hhead
  obtain ⟨a, b, rfl, ha⟩ := List.eq_append_cons_of_mem (hl.noSlash t (List.mem_of_mem_head? hhead))
  have hne : a ≠ [] := by
    rintro rfl
    exact h rfl
  rw [hl.slash, List.head?_append_of_ne_nil _ fun hnil => hne (hl.nonempty a hnil)] at hhead
  exact ha (hl.noSlash a (List.mem_of_mem_head? hhead))

/-- A text that ends with no slash is lowercased to one that ends with none. -/
theorem last_toLowerCase (hl : p.LowersTexts) {t : List Char} (h : t.getLast? ≠ some '/') :
    (p.toLowerCase t).getLast? ≠ some '/' := by
  intro hlast
  have hmem : '/' ∈ t.reverse := List.mem_reverse.mpr (hl.noSlash t (List.mem_of_mem_getLast? hlast))
  obtain ⟨b, a, hrev, hb⟩ := List.eq_append_cons_of_mem hmem
  obtain rfl : t = a.reverse ++ '/' :: b.reverse := by
    rw [← List.reverse_reverse t, hrev]
    simp
  have hne : b.reverse ≠ [] := by
    intro hnil
    rw [hnil] at h
    exact h (by simp)
  rw [hl.slash, List.getLast?_append_cons, List.getLast?_cons_of_ne_nil fun hnil => hne (hl.nonempty _ hnil)] at hlast
  exact hb (List.mem_reverse.mp (hl.noSlash _ (List.mem_of_mem_getLast? hlast)))

/-- The parts of a lowercase text around a slash are lowercase. -/
theorem lowercase_split (hl : p.LowersTexts) {a b : List Char} (ha : '/' ∉ a) (h : p.toLowerCase (a ++ '/' :: b) = a ++ '/' :: b) :
    p.toLowerCase a = a ∧ p.toLowerCase b = b := by
  rw [hl.slash] at h
  exact SelfDelimiting.split_at (fun hmem => ha (hl.noSlash a hmem)) ha h

/-! ## Reading a reference -/

/-- An identity is that of the parts of the reference. -/
theorem canonicalGitRepoIdentity_eq (value : List Char) : canonicalGitRepoIdentity p value =
    (repositoryParts p value).bind fun parts =>
      (normalizeGitRepoPath p parts.2).map fun path => identityOf (p.toLowerCase parts.1) path := by
  unfold canonicalGitRepoIdentity repositoryParts
  dsimp only
  generalize (if includesAuthorityMark (trim value) then none else scpLike (trim value)) = scp
  cases scp with
  | some parts => rfl
  | none =>
    cases WebUrl.parse p.toRuntime (trim value) with
    | none => rfl
    | some url =>
      by_cases hhost : url.hostname = []
      · cases hnormal : normalizeGitRepoPath p url.pathname <;> simp [hhost, hnormal]
      · cases hnormal : normalizeGitRepoPath p url.pathname <;> simp [hhost, hnormal]

/-- A normalized path is the lowercased rest of the trimmed one. -/
theorem normalize_eq (path : List Char) : normalizeGitRepoPath p path =
    if (if endsWithGit p (trimSlashes path) then beforeGit (trimSlashes path) else trimSlashes path) = [] then none
    else some (p.toLowerCase (if endsWithGit p (trimSlashes path) then beforeGit (trimSlashes path) else trimSlashes path)) := rfl

/-- A trimmed path has no slash at its ends. -/
theorem trimSlashes_edges (path : List Char) : (trimSlashes path).head? ≠ some '/' ∧ (trimSlashes path).getLast? ≠ some '/' := by
  obtain ⟨hhead, hlast⟩ := Trimming.edgesClean_trim (fun c => decide (c = '/')) path
  exact ⟨fun h => absurd (hhead '/' h) (by decide), fun h => absurd (hlast '/' h) (by decide)⟩

/-- A path without slashes at its ends, also behind a slash, is its own trim. -/
theorem trimSlashes_eq {path : List Char} (hhead : path.head? ≠ some '/') (hlast : path.getLast? ≠ some '/') :
    trimSlashes path = path ∧ trimSlashes ('/' :: path) = path := by
  have hclean : trimSlashes path = path := by
    refine Trimming.trim_eq_self ⟨fun c hc => ?_, fun c hc => ?_⟩
    · refine decide_eq_false ?_
      rintro rfl
      exact hhead hc
    · refine decide_eq_false ?_
      rintro rfl
      exact hlast hc
  exact ⟨hclean, (Trimming.trim_cons_of_pos (by decide) path).trans hclean⟩

/-- What stands before the last characters starts like the path. -/
theorem head_beforeGit {path : List Char} (h : path.head? ≠ some '/') : (beforeGit path).head? ≠ some '/' := by
  intro hhead
  cases path with
  | nil => cases hhead
  | cons c path =>
    unfold beforeGit at hhead
    rw [List.head?_take] at hhead
    split at hhead
    · cases hhead
    · exact h hhead

/-- A canonical path is the lowercased part of the path of the reference. -/
theorem path_spec {value : List Char} {identity : CanonicalGitRepoIdentity}
    (h : canonicalGitRepoIdentity p value = some identity) :
    ∃ host rest, identity = identityOf (p.toLowerCase host) (p.toLowerCase rest) ∧ rest ≠ [] ∧ rest.head? ≠ some '/' ∧
      (¬ NestedSuffix p value → rest.getLast? ≠ some '/' ∧ endsWithGit p rest = false) := by
  rw [canonicalGitRepoIdentity_eq, Option.bind_eq_some_iff] at h
  obtain ⟨⟨host, path⟩, hparts, h⟩ := h
  obtain ⟨normal, hnormal, rfl⟩ := Option.map_eq_some_iff.mp h
  rw [normalize_eq] at hnormal
  obtain ⟨hhead, hlast⟩ := trimSlashes_edges path
  by_cases hgit : endsWithGit p (trimSlashes path) = true
  · rw [if_pos hgit] at hnormal
    split at hnormal
    · cases hnormal
    · rename_i hne
      obtain rfl := Option.some.inj hnormal
      refine ⟨host, beforeGit (trimSlashes path), rfl, hne, head_beforeGit hhead, fun hnested => ?_⟩
      refine ⟨fun hslash => hnested ⟨host, path, hparts, hgit, .inl hslash⟩, ?_⟩
      exact Bool.eq_false_iff.mpr fun hsuffix => hnested ⟨host, path, hparts, hgit, .inr hsuffix⟩
  · rw [if_neg hgit] at hnormal
    split at hnormal
    · cases hnormal
    · rename_i hne
      obtain rfl := Option.some.inj hnormal
      exact ⟨host, trimSlashes path, rfl, hne, hhead, fun _ => ⟨hlast, Bool.eq_false_iff.mpr hgit⟩⟩

/-! ## The mark of a URL -/

/-- A text includes the mark when the mark is a part of it. -/
theorem includesAuthorityMark_iff {t : List Char} : includesAuthorityMark t = true ↔ ∃ a b, t = a ++ "://".toList ++ b := by
  unfold includesAuthorityMark
  rw [List.any_eq_true]
  constructor
  · rintro ⟨s, hs, hprefix⟩
    obtain ⟨a, rfl⟩ := (List.mem_tails s t).mp hs
    obtain ⟨b, rfl⟩ := List.isPrefixOf_iff_prefix.mp hprefix
    exact ⟨a, b, by rw [List.append_assoc]⟩
  · rintro ⟨a, b, rfl⟩
    refine ⟨"://".toList ++ b, (List.mem_tails _ _).mpr ⟨a, by rw [List.append_assoc]⟩, ?_⟩
    exact List.isPrefixOf_iff_prefix.mpr ⟨b, rfl⟩

/-- An scp form has no mark when its host has no colon and its path has no mark and starts with no slash. -/
theorem no_mark_scp {host path : List Char} (hhost : ':' ∉ host) (hne : path ≠ []) (hhead : path.head? ≠ some '/')
    (hpath : includesAuthorityMark path = false) : includesAuthorityMark (scpForm host (path ++ ".git".toList)) = false := by
  refine Bool.eq_false_iff.mpr fun hmark => ?_
  obtain ⟨a, b, heq⟩ := includesAuthorityMark_iff.mp hmark
  have hhost' : ':' ∉ "git@".toList ++ host := by
    intro hmem
    rcases List.mem_append.mp hmem with hmem | hmem
    · exact absurd hmem (by decide)
    · exact hhost hmem
  have htext : scpForm host (path ++ ".git".toList) = a ++ ':' :: ("//".toList ++ b) := by
    rw [heq, List.append_assoc]
    rfl
  by_cases ha : ':' ∈ a
  · -- The mark is behind the first colon, in the path.
    obtain ⟨a₁, a₂, rfl, ha₁⟩ := List.eq_append_cons_of_mem ha
    rw [List.append_assoc, List.cons_append] at htext
    obtain ⟨_, hrest⟩ := SelfDelimiting.split_at hhost' ha₁ htext
    have hrest' : path ++ ".git".toList = (a₂ ++ "://".toList) ++ b := by
      rw [hrest, List.append_assoc]
      rfl
    rcases List.append_eq_append_iff.mp hrest' with ⟨c, hc, hgit⟩ | ⟨c, hc, _⟩
    · rcases List.eq_nil_or_concat c with rfl | ⟨c', last, rfl⟩
      · rw [List.append_nil] at hc
        exact Bool.false_ne_true (hpath.symm.trans (includesAuthorityMark_iff.mpr ⟨a₂, [], by rw [hc, List.append_nil]⟩))
      · have hlast := congrArg List.getLast? hc
        rw [List.concat_eq_append, ← List.append_assoc, List.getLast?_append, List.getLast?_append] at hlast
        simp only [List.getLast?_singleton, Option.some_or] at hlast
        obtain rfl : '/' = last := Option.some.inj hlast
        have hmem : '/' ∈ ".git".toList := hgit ▸ List.mem_append_left b (by simp)
        exact absurd hmem (by decide)
    · exact Bool.false_ne_true (hpath.symm.trans (includesAuthorityMark_iff.mpr ⟨a₂, c, hc⟩))
  · obtain ⟨_, hrest⟩ := SelfDelimiting.split_at hhost' ha htext
    obtain ⟨c, path', rfl⟩ := List.exists_cons_of_ne_nil hne
    exact hhead (congrArg some (List.cons.inj hrest).1)

/-- A text with the mark is read as a URL. -/
theorem canonicalGitRepoUrl_mark {value : List Char} (h : includesAuthorityMark (trim value) = true) :
    canonicalGitRepoUrl p value = (WebUrl.parse p.toRuntime (trim value)).bind fun url =>
      if url.hostname = [] then none
      else (normalizeGitRepoPath p url.pathname).map fun path => p.toLowerCase url.hostname ++ '/' :: path := by
  rw [canonicalGitRepoUrl, canonicalGitRepoIdentity_eq, repositoryParts, if_pos h]
  cases WebUrl.parse p.toRuntime (trim value) with
  | none => rfl
  | some url =>
    by_cases hhost : url.hostname = []
    · simp [hhost]
    · cases hnormal : normalizeGitRepoPath p url.pathname <;> simp [hhost, hnormal, identityOf]

/-! ## Visible texts -/

/-- A visible text has no white space. -/
theorem trim_visible {t : List Char} (h : ∀ c ∈ t, WebUrl.IsVisible c) : trim t = t := by
  have hspace : ∀ c ∈ t, ShellCommandIo.isSpace c = false := by
    intro c hc
    obtain ⟨hlow, hhigh⟩ := h c hc
    simp only [ShellCommandIo.isSpace, Bool.or_eq_false_iff, Bool.and_eq_false_iff, decide_eq_false_iff_not]
    omega
  exact Trimming.trim_eq_self ⟨fun c hc => hspace c (List.mem_of_mem_head? hc), fun c hc => hspace c (List.mem_of_mem_getLast? hc)⟩

/-- A path character is lowercased to one. -/
theorem isPathChar_toLower {rt : WebUrl.Runtime} {c : Char} (h : WebUrl.isPathChar rt c = true) :
    WebUrl.isPathChar rt c.toLower = true := by
  have key : ∀ n : Fin 128, ∀ b : Bool,
      WebUrl.isPathChar ⟨fun _ => none, fun _ => none, fun _ _ => none, b⟩ (Char.ofNat n.val) = true →
      WebUrl.isPathChar ⟨fun _ => none, fun _ => none, fun _ _ => none, b⟩ (Char.ofNat n.val).toLower = true := by decide
  obtain ⟨_, hhigh⟩ := (WebUrl.isPathChar_visible h).1
  have hc : c = Char.ofNat c.toNat := (Char.ofNat_toNat c).symm
  rw [hc] at h ⊢
  exact key ⟨c.toNat, by omega⟩ rt.escapesCaret h

/-- A plain lowercase text has no capital. -/
theorem isPlainLower_of_lowercase (hd : p.Documented) {t : List Char}
    (hplain : ∀ c ∈ t, c = '/' ∨ WebUrl.isPathChar p.toRuntime c = true)
    (hlower : p.toLowerCase t = t) : ∀ c ∈ t, WebUrl.isPlainLower c = true := by
  have hvisible : ∀ c ∈ t, WebUrl.IsVisible c := by
    intro c hc
    rcases hplain c hc with rfl | hc
    · exact ⟨by decide, by decide⟩
    · exact (WebUrl.isPathChar_visible hc).1
  have hmap : t.map Char.toLower = t.map id := by
    rw [List.map_id, ← hd.lowerAscii t fun c hc => Nat.lt_of_le_of_lt (hvisible c hc).2 (by decide), hlower]
  have key : ∀ n : Fin 128, (Char.ofNat n.val).toLower = Char.ofNat n.val → (Char.ofNat n.val).isUpper = false := by decide
  intro c hc
  obtain ⟨hlow, hhigh⟩ := hvisible c hc
  have hself : c.toLower = c := List.map_inj_left.mp hmap c hc
  have hchar : c = Char.ofNat c.toNat := (Char.ofNat_toNat c).symm
  have hupper : c.isUpper = false := by
    rw [hchar] at hself ⊢
    exact key ⟨c.toNat, by omega⟩ hself
  simp [WebUrl.isPlainLower, hlow, hhigh, hupper]

/-! ## Paths that are written as they are read -/

/-- A path without slashes at its ends and without a `.git` is normalized to itself, also behind a slash. -/
theorem normalize_clean {path : List Char} (hne : path ≠ []) (hhead : path.head? ≠ some '/') (hlast : path.getLast? ≠ some '/')
    (hlower : p.toLowerCase path = path) (hgit : ¬ ".git".toList <:+ path) : normalizeGitRepoPath p ('/' :: path) = some path := by
  have hends : endsWithGit p path = false := by
    refine Bool.eq_false_iff.mpr fun h => hgit ?_
    rw [endsWithGit, List.isSuffixOf_iff_suffix, hlower] at h
    exact h
  rw [normalize_eq, (trimSlashes_eq hhead hlast).2, hends, if_neg Bool.false_ne_true, if_neg hne, hlower]

/-- With a `.git` it is normalized to what stands before, behind a slash or not. -/
theorem normalize_git {path : List Char} (hne : path ≠ []) (hhead : path.head? ≠ some '/') (hlower : p.toLowerCase path = path)
    (hgit : p.toLowerCase (path ++ ".git".toList) = path ++ ".git".toList) :
    normalizeGitRepoPath p (path ++ ".git".toList) = some path ∧
      normalizeGitRepoPath p ('/' :: (path ++ ".git".toList)) = some path := by
  have hhead' : (path ++ ".git".toList).head? ≠ some '/' := by
    rw [List.head?_append_of_ne_nil path hne]
    exact hhead
  have hlast' : (path ++ ".git".toList).getLast? ≠ some '/' := by
    rw [List.getLast?_append]
    exact fun h => absurd h (by simp)
  have hends : endsWithGit p (path ++ ".git".toList) = true := by
    rw [endsWithGit, List.isSuffixOf_iff_suffix, hgit]
    exact List.suffix_append _ _
  have hbefore : beforeGit (path ++ ".git".toList) = path := by
    have hlen : (path ++ ".git".toList).length - 4 = path.length := by
      rw [List.length_append]
      exact Nat.add_sub_cancel _ _
    rw [beforeGit, hlen, List.take_left]
  obtain ⟨hself, hslash⟩ := trimSlashes_eq hhead' hlast'
  constructor
  · rw [normalize_eq, hself, hends, if_pos rfl, hbefore, if_neg hne, hlower]
  · rw [normalize_eq, hslash, hends, if_pos rfl, hbefore, if_neg hne, hlower]

/-- No segment of a path moves with a `.git` behind it when none moves without. -/
theorem segments_git {path : List Char} (h : ∀ s ∈ path.splitOn '/', WebUrl.isDotSegment s = false) :
    ∀ s ∈ (path ++ ".git".toList).splitOn '/', WebUrl.isDotSegment s = false := by
  obtain ⟨init, last, hsplit⟩ := (List.eq_nil_or_concat' (path.splitOn '/')).resolve_left (List.splitOn_ne_nil '/' path)
  have hjoin : ['/'].intercalate (init ++ [last]) = path := hsplit ▸ List.intercalate_splitOn '/'
  have hpath : path ++ ".git".toList = ['/'].intercalate (init ++ [last ++ ".git".toList]) := by
    rw [← hjoin, SelfDelimiting.intercalate_concat, SelfDelimiting.intercalate_concat, List.append_assoc]
  have hnoslash : ∀ s ∈ init ++ [last ++ ".git".toList], '/' ∉ s := by
    intro s hs hmem
    rcases List.mem_append.mp hs with hs | hs
    · exact WebUrl.not_mem_of_mem_splitOn (hsplit ▸ List.mem_append_left _ hs) hmem
    · rw [List.mem_singleton.mp hs] at hmem
      rcases List.mem_append.mp hmem with hmem | hmem
      · exact WebUrl.not_mem_of_mem_splitOn (hsplit ▸ List.mem_append_right _ (List.mem_singleton_self last)) hmem
      · exact absurd hmem (by decide)
  rw [hpath, List.splitOn_intercalate '/' hnoslash (by simp)]
  intro s hs
  rcases List.mem_append.mp hs with hs | hs
  · exact h s (hsplit ▸ List.mem_append_left _ hs)
  · refine Bool.eq_false_iff.mpr fun hdot => ?_
    have key : ∀ d ∈ WebUrl.dots ++ WebUrl.dots.flatMap fun a =>
        WebUrl.dots.map (a ++ ·), ".git".toList.isSuffixOf d = false := by decide
    have hmem : s ∈ WebUrl.dots ++ WebUrl.dots.flatMap fun a => WebUrl.dots.map (a ++ ·) := by
      rw [WebUrl.isDotSegment, WebUrl.isSingleDot, WebUrl.isDoubleDot, Bool.or_eq_true, List.contains_iff_mem,
        List.contains_iff_mem] at hdot
      exact List.mem_append.mpr hdot
    have hsuffix : ".git".toList.isSuffixOf s = true := by
      rw [List.mem_singleton.mp hs, List.isSuffixOf_iff_suffix]
      exact List.suffix_append _ _
    exact Bool.false_ne_true ((key s hmem).symm.trans hsuffix)

/-- A host and a path that URLs read as they are written, in their normal form. -/
structure Written (p : Platform) (name rest : List Char) : Prop where
  host : p.parseHost name = some name
  nonempty : rest ≠ []
  head : rest.head? ≠ some '/'
  last : rest.getLast? ≠ some '/'
  lower : p.toLowerCase rest = rest
  noGit : ¬ ".git".toList <:+ rest
  plain : ∀ c ∈ rest, c = '/' ∨ WebUrl.isPathChar p.toRuntime c = true
  segments : ∀ s ∈ rest.splitOn '/', WebUrl.isDotSegment s = false

/-- With a `.git` the characters of a plain lowercase path are plain, and lowercase. -/
theorem plain_git (hd : p.Documented) {path : List Char} (hplain : ∀ c ∈ path, c = '/' ∨ WebUrl.isPathChar p.toRuntime c = true)
    (hlower : p.toLowerCase path = path) :
    (∀ c ∈ path ++ ".git".toList, c = '/' ∨ WebUrl.isPathChar p.toRuntime c = true) ∧
      p.toLowerCase (path ++ ".git".toList) = path ++ ".git".toList := by
  have hchars : ∀ c ∈ ".git".toList, (∀ b, WebUrl.isPathChar ⟨fun _ => none, fun _ => none, fun _ _ => none, b⟩ c = true) ∧
      WebUrl.isPlainLower c = true := List.all_iff_forall_prop.mp (by decide)
  constructor
  · intro c hc
    rcases List.mem_append.mp hc with hc | hc
    · exact hplain c hc
    · exact .inr ((hchars c hc).1 p.escapesCaret)
  · refine toLowerCase_plain hd fun c hc => ?_
    rcases List.mem_append.mp hc with hc | hc
    · exact isPlainLower_of_lowercase hd hplain hlower c hc
    · exact (hchars c hc).2

/-- A plain text is one line. -/
theorem no_line_plain {t : List Char} (h : ∀ c ∈ t, c = '/' ∨ WebUrl.isPathChar p.toRuntime c = true) :
    t.any isLineTerminator = false := by
  refine List.any_eq_false.mpr fun c hc hline => ?_
  have hvisible : WebUrl.IsVisible c := by
    rcases h c hc with rfl | hc
    · exact ⟨by decide, by decide⟩
    · exact (WebUrl.isPathChar_visible hc).1
  have key : ∀ d ∈ ['\n', '\r', '\u2028', '\u2029'], d.toNat < 0x21 ∨ 0x7e < d.toNat := List.all_iff_forall_prop.mp (by decide)
  obtain ⟨hlow, hhigh⟩ := hvisible
  have := key c (List.contains_iff_mem.mp hline)
  omega

/-- A path that does not move is read as it is written. -/
theorem pathText_resolve {path : List Char} (h : ∀ s ∈ path.splitOn '/', WebUrl.isDotSegment s = false) :
    WebUrl.pathText (WebUrl.resolveSegments [] (path.splitOn '/')) = '/' :: path := by
  rw [WebUrl.resolveSegments_plain h, List.nil_append, WebUrl.pathText_splitOn]

/-- An `https` URL of a host and a plain path is parsed to its parts. -/
theorem parse_httpsForm (hd : p.Documented) {name path : List Char} (hhost : p.parseHost name = some name)
    (hpath : ∀ c ∈ path, c = '/' ∨ WebUrl.isPathChar p.toRuntime c = true) :
    trim (httpsForm name path) = httpsForm name path ∧ includesAuthorityMark (httpsForm name path) = true ∧
      WebUrl.parse p.toRuntime (httpsForm name path) =
        some ⟨"https".toList, [], [], name, none, WebUrl.pathText (WebUrl.resolveSegments [] (path.splitOn '/')), [], []⟩ := by
  have hscheme : ∀ d ∈ "https://".toList, WebUrl.IsVisible d := by
    unfold WebUrl.IsVisible
    exact List.all_iff_forall_prop.mp (by decide)
  have hvisible : ∀ c ∈ "https://".toList ++ name ++ '/' :: path, WebUrl.IsVisible c :=
    WebUrl.visible_plain hscheme (fun c hc => ((hd.url.hostText hhost).plain c hc).1) hpath
  have hmark : "https://".toList ++ name ++ '/' :: path = "https".toList ++ "://".toList ++ (name ++ '/' :: path) := by
    rw [List.append_assoc]
    rfl
  have hport : WebUrl.IsPort "https".toList none := fun n hn => absurd hn (by simp)
  have hparse := WebUrl.parse_plain hd.url hhost hport hpath
  rw [WebUrl.portText, Option.elim_none, List.append_nil] at hparse
  exact ⟨trim_visible hvisible, includesAuthorityMark_iff.mpr ⟨_, _, hmark⟩, hparse⟩

/-- An `ssh` URL of a host and a plain path is parsed to its parts, with what the host parser makes of the host. -/
theorem parse_sshForm {name path : List Char} (hname : WebUrl.IsHostText name)
    (hpath : ∀ c ∈ path, c = '/' ∨ WebUrl.isPathChar p.toRuntime c = true) :
    trim (sshForm name path) = sshForm name path ∧ includesAuthorityMark (sshForm name path) = true ∧
      WebUrl.parse p.toRuntime (sshForm name path) = (p.parseOpaqueHost name).map fun hostname =>
        ⟨"ssh".toList, "git".toList, [], hostname, none, WebUrl.pathText (WebUrl.resolveSegments [] (path.splitOn '/')), [], []⟩ := by
  have hscheme : ∀ d ∈ "ssh://git@".toList, WebUrl.IsVisible d := by
    unfold WebUrl.IsVisible
    exact List.all_iff_forall_prop.mp (by decide)
  have hvisible : ∀ c ∈ "ssh://git@".toList ++ name ++ '/' :: path, WebUrl.IsVisible c :=
    WebUrl.visible_plain hscheme (fun c hc => (hname.plain c hc).1) hpath
  have hmark : "ssh://git@".toList ++ name ++ '/' :: path = "ssh".toList ++ "://".toList ++
      ("git@".toList ++ name ++ '/' :: path) := by
    rw [List.append_assoc, List.append_assoc, List.append_assoc]
    rfl
  exact ⟨trim_visible hvisible, includesAuthorityMark_iff.mpr ⟨_, _, hmark⟩, WebUrl.parse_ssh_plain hname hpath⟩

/-- A host that is kept is lowercase and not empty. -/
theorem host_kept (hd : p.Documented) {name : List Char} (h : p.parseHost name = some name) :
    p.toLowerCase name = name ∧ name ≠ [] ∧ '/' ∉ name := by
  have htext := hd.url.hostText h
  refine ⟨toLowerCase_plain hd fun c hc => (htext.plain c hc).1, ?_, fun hmem => (htext.plain _ hmem).2 (by simp)⟩
  rcases htext with ⟨hne, -⟩ | ⟨inner, rfl, -⟩
  · exact hne
  · simp

/-- The `https` forms of a written repository have its key. -/
theorem https_forms (hd : p.Documented) {name rest : List Char} (h : Written p name rest) :
    canonicalGitRepoUrl p (httpsForm name rest) = some (name ++ '/' :: rest) ∧
      canonicalGitRepoUrl p (httpsForm name (rest ++ ".git".toList)) = some (name ++ '/' :: rest) := by
  obtain ⟨hlower, hne, _⟩ := host_kept hd h.host
  obtain ⟨hplain, hgit⟩ := plain_git hd h.plain h.lower
  constructor
  · obtain ⟨htrim, hmark, hparse⟩ := parse_httpsForm hd h.host h.plain
    rw [canonicalGitRepoUrl_mark (by rw [htrim]; exact hmark), htrim, hparse, Option.bind_some, if_neg hne,
      pathText_resolve h.segments, normalize_clean h.nonempty h.head h.last h.lower h.noGit, Option.map_some, hlower]
  · obtain ⟨htrim, hmark, hparse⟩ := parse_httpsForm hd h.host hplain
    rw [canonicalGitRepoUrl_mark (by rw [htrim]; exact hmark), htrim, hparse, Option.bind_some, if_neg hne,
      pathText_resolve (segments_git h.segments), (normalize_git h.nonempty h.head h.lower hgit).2, Option.map_some, hlower]

/-- The `ssh` form of a written repository has the host the host parser makes of it. -/
theorem ssh_form (hd : p.Documented) {name rest : List Char} (h : Written p name rest) :
    canonicalGitRepoUrl p (sshForm name (rest ++ ".git".toList)) = (p.parseOpaqueHost name).bind fun hostname =>
      if hostname = [] then none else some (p.toLowerCase hostname ++ '/' :: rest) := by
  obtain ⟨hplain, hgit⟩ := plain_git hd h.plain h.lower
  obtain ⟨htrim, hmark, hparse⟩ := parse_sshForm (p := p) (hd.url.hostText h.host) hplain
  rw [canonicalGitRepoUrl_mark (by rw [htrim]; exact hmark), htrim, hparse]
  cases p.parseOpaqueHost name with
  | none => rfl
  | some hostname =>
    rw [Option.map_some, Option.bind_some, Option.bind_some, pathText_resolve (segments_git h.segments),
      (normalize_git h.nonempty h.head h.lower hgit).2, Option.map_some]

/-- The `ssh` form of a written repository has its key when the host parser makes the host of it. -/
theorem ssh_form_iff (hd : p.Documented) {name rest : List Char} (h : Written p name rest) :
    canonicalGitRepoUrl p (sshForm name (rest ++ ".git".toList)) = some (name ++ '/' :: rest) ↔
      (p.parseOpaqueHost name).map p.toLowerCase = some name := by
  obtain ⟨_, hne, _⟩ := host_kept hd h.host
  rw [ssh_form hd h]
  cases p.parseOpaqueHost name with
  | none => simp
  | some hostname =>
    rw [Option.bind_some, Option.map_some]
    constructor
    · intro heq
      split at heq
      · cases heq
      · exact congrArg some (List.append_cancel_right (Option.some.inj heq))
    · intro heq
      rw [Option.some.inj heq, if_neg]
      rintro rfl
      have hnil : p.toLowerCase [] = [] := hd.lowerAscii [] fun c hc => absurd hc List.not_mem_nil
      exact hne ((Option.some.inj heq).symm.trans hnil)

/-- The scp form is split at its first colon. -/
theorem scpLike_scpForm {host path : List Char} (hhost : ':' ∉ host) (hne : host ≠ []) (hpath : path ≠ [])
    (hline : path.any isLineTerminator = false) : scpLike (scpForm host path) = some (host, path) := by
  have htake : (host ++ ':' :: path).takeWhile (· ≠ ':') = host := by
    rw [List.takeWhile_append_of_pos]
    · simp
    · intro c hc
      refine decide_eq_true ?_
      rintro rfl
      exact hhost hc
  have hdrop : (host ++ ':' :: path).dropWhile (· ≠ ':') = ':' :: path := by
    rw [List.dropWhile_append_of_pos]
    · simp
    · intro c hc
      refine decide_eq_true ?_
      rintro rfl
      exact hhost hc
  have hsplit : scpLike (scpForm host path) = (hostAndPath (host ++ ':' :: path)).or (hostAndPath (scpForm host path)) := by
    rw [scpForm, List.append_assoc]
    rfl
  obtain ⟨h, host', rfl⟩ := List.exists_cons_of_ne_nil hne
  obtain ⟨c, path', rfl⟩ := List.exists_cons_of_ne_nil hpath
  have hparts : hostAndPath (h :: host' ++ ':' :: c :: path') = some (h :: host', c :: path') := by
    rw [hostAndPath, htake, hdrop]
    exact if_neg fun hany => Bool.false_ne_true (hline.symm.trans hany)
  rw [hsplit, hparts, Option.some_or]

/-- An scp form with a `.git` has no white space at its ends. -/
theorem trim_scpForm (host path : List Char) : trim (scpForm host (path ++ ".git".toList)) =
    scpForm host (path ++ ".git".toList) := by
  refine Trimming.trim_eq_self ⟨fun c hc => ?_, fun c hc => ?_⟩
  · obtain rfl : 'g' = c := Option.some.inj hc
    decide
  · have hlast : (scpForm host (path ++ ".git".toList)).getLast? = some 't' := by
      rw [scpForm, List.getLast?_append, List.getLast?_cons, List.getLast?_append]
      rfl
    obtain rfl : 't' = c := Option.some.inj (hlast.symm.trans hc)
    decide

/-- The scp form of a lowercase host and path has their key. -/
theorem scp_form {host path : List Char} (hhost : ':' ∉ host) (hne : host ≠ []) (hlower : p.toLowerCase host = host)
    (hpath : path ≠ []) (hhead : path.head? ≠ some '/') (hlowerPath : p.toLowerCase path = path)
    (hgit : p.toLowerCase (path ++ ".git".toList) = path ++ ".git".toList)
      (hline : (path ++ ".git".toList).any isLineTerminator = false)
    (hmark : includesAuthorityMark path = false) :
    canonicalGitRepoUrl p (scpForm host (path ++ ".git".toList)) = some (host ++ '/' :: path) := by
  have hne' : path ++ ".git".toList ≠ [] := fun hnil => hpath (List.append_eq_nil_iff.mp hnil).1
  rw [canonicalGitRepoUrl, canonicalGitRepoIdentity_eq, repositoryParts, trim_scpForm, no_mark_scp hhost hpath hhead hmark,
    if_neg Bool.false_ne_true, scpLike_scpForm hhost hne hne' hline]
  rw [Option.bind_some, (normalize_git hpath hhead hlowerPath hgit).1, Option.map_some, hlower]
  rfl

/-- A path with the mark has no scp form with its key. -/
theorem no_mark_of_scp {host path canonical : List Char}
    (h : canonicalGitRepoUrl p (scpForm host (path ++ ".git".toList)) = some canonical) : includesAuthorityMark path = false := by
  refine Bool.eq_false_iff.mpr fun hmark => ?_
  obtain ⟨a, b, rfl⟩ := includesAuthorityMark_iff.mp hmark
  have htext : scpForm host (a ++ "://".toList ++ b ++ ".git".toList) =
      ("git@".toList ++ host ++ ':' :: a) ++ "://".toList ++ (b ++ ".git".toList) := by
    simp [scpForm]
  have hmark' : includesAuthorityMark (trim (scpForm host (a ++ "://".toList ++ b ++ ".git".toList))) = true := by
    rw [trim_scpForm]
    exact includesAuthorityMark_iff.mpr ⟨_, _, htext⟩
  have hnone : WebUrl.parse p.toRuntime (scpForm host (a ++ "://".toList ++ b ++ ".git".toList)) = none := by
    rw [scpForm, List.append_assoc]
    exact WebUrl.parse_scp _
  rw [canonicalGitRepoUrl_mark hmark', trim_scpForm, hnone] at h
  cases h

/-- A key of the `https` form is read from its URL. -/
theorem of_https {text canonical : List Char} (h : canonicalGitRepoUrl p ("https://".toList ++ text) = some canonical) :
    ∃ input url path, WebUrl.parse p.toRuntime input = some url ∧ url.scheme = "https".toList ∧
      trim ("https://".toList ++ text) = input ∧ normalizeGitRepoPath p url.pathname = some path ∧
      canonical = p.toLowerCase url.hostname ++ '/' :: path := by
  obtain ⟨b, hb⟩ := Trimming.trim_append (p := ShellCommandIo.isSpace) (a := "https://".toList) (by decide)
    ⟨fun c hc => by
      obtain rfl : 'h' = c := Option.some.inj hc; decide, fun c hc => by obtain rfl : '/' = c := Option.some.inj hc; decide⟩ text
  have htrim : trim ("https://".toList ++ text) = "https://".toList ++ b := hb
  have hmark : includesAuthorityMark (trim ("https://".toList ++ text)) = true := by
    rw [htrim]
    exact includesAuthorityMark_iff.mpr ⟨"https".toList, b, rfl⟩
  rw [canonicalGitRepoUrl_mark hmark, htrim, Option.bind_eq_some_iff] at h
  obtain ⟨url, hurl, h⟩ := h
  split at h
  · cases h
  · obtain ⟨path, hpath, rfl⟩ := Option.map_eq_some_iff.mp h
    exact ⟨_, url, path, hurl, WebUrl.scheme_https hurl, htrim, hpath, rfl⟩

/-- A normalized path is a lowercased part of the trimmed path, which is not empty and starts with no slash. -/
theorem of_normalize {pathname path : List Char} (h : normalizeGitRepoPath p pathname = some path) :
    ∃ rest, path = p.toLowerCase rest ∧ rest.Sublist (trimSlashes pathname) ∧ rest ≠ [] ∧ rest.head? ≠ some '/' := by
  rw [normalize_eq] at h
  generalize hrest :
    (if endsWithGit p (trimSlashes pathname) then beforeGit (trimSlashes pathname) else trimSlashes pathname) = rest at h
  split at h
  · cases h
  · rename_i hne
    refine ⟨rest, (Option.some.inj h).symm, ?_, hne, ?_⟩
    · rw [← hrest]
      split
      · exact List.take_sublist _ _
      · exact List.Sublist.refl _
    · rw [← hrest]
      split
      · exact head_beforeGit (trimSlashes_edges pathname).1
      · exact (trimSlashes_edges pathname).1

/-- A text of path characters and slashes is ASCII. -/
theorem ascii_of_plain {t : List Char} (h : ∀ c ∈ t, c = '/' ∨ WebUrl.isPathChar p.toRuntime c = true) : ∀ c ∈ t, c.toNat < 128 := by
  intro c hc
  rcases h c hc with rfl | hc
  · decide
  · exact Nat.lt_of_le_of_lt (WebUrl.isPathChar_visible hc).1.2 (by decide)

/-- A normalized path of plain characters has plain characters. -/
theorem normalize_plain (hd : p.Documented) {pathname path : List Char}
    (hplain : ∀ c ∈ pathname, c = '/' ∨ WebUrl.isPathChar p.toRuntime c = true) (h : normalizeGitRepoPath p pathname = some path) :
    ∀ c ∈ path, c = '/' ∨ WebUrl.isPathChar p.toRuntime c = true := by
  obtain ⟨rest, rfl, hsub, _⟩ := of_normalize h
  have hmem : ∀ c ∈ rest, c = '/' ∨ WebUrl.isPathChar p.toRuntime c = true :=
    fun c hc => hplain c ((Trimming.trim_sublist _ _).subset (hsub.subset hc))
  rw [hd.lowerAscii rest (ascii_of_plain hmem)]
  intro c hc
  obtain ⟨d, hdmem, rfl⟩ := List.mem_map.mp hc
  rcases hmem d hdmem with rfl | hchar
  · exact .inl rfl
  · exact .inr (isPathChar_toLower hchar)

/-- A normalized plain path is shorter than the path of the URL, which starts with a slash. -/
theorem length_normalize (hd : p.Documented) {path path' : List Char} (hplain : ∀ c ∈ path, c = '/' ∨
    WebUrl.isPathChar p.toRuntime c = true)
    (h : normalizeGitRepoPath p ('/' :: path) = some path') : path'.length ≤ path.length := by
  obtain ⟨rest, rfl, hsub, _⟩ := of_normalize h
  have htrim : trimSlashes ('/' :: path) = trimSlashes path := Trimming.trim_cons_of_pos (by decide) path
  rw [htrim] at hsub
  have hmem : rest.Sublist path := hsub.trans (Trimming.trim_sublist _ path)
  rw [hd.lowerAscii rest (ascii_of_plain fun c hc => hplain c (hmem.subset hc)), List.length_map]
  exact hmem.length_le

/-- When a path is normalized to itself behind the host, no segment of it moves. -/
theorem segments_of_normalize (hd : p.Documented) {rest : List Char} (hplain : ∀ c ∈ rest, c = '/' ∨
    WebUrl.isPathChar p.toRuntime c = true)
    (h : normalizeGitRepoPath p (WebUrl.pathText (WebUrl.resolveSegments [] (rest.splitOn '/'))) = some rest) :
    ∀ s ∈ rest.splitOn '/', WebUrl.isDotSegment s = false := by
  intro s hs
  refine Bool.eq_false_iff.mpr fun hdot => ?_
  have hlt := (WebUrl.length_pathText_resolve [] (rest.splitOn '/')).2 ⟨s, hs, hdot⟩
  rw [WebUrl.pathText_splitOn, List.length_cons] at hlt
  generalize hresolved : WebUrl.resolveSegments [] (rest.splitOn '/') = resolved at h hlt
  cases resolved with
  | nil =>
    obtain ⟨_, _, hsub, hne, _⟩ := of_normalize h
    exact hne (List.sublist_nil.mp hsub)
  | cons t resolved =>
    have htext : WebUrl.pathText (t :: resolved) = '/' :: (t ++ WebUrl.pathText resolved) := rfl
    rw [htext] at h hlt
    have hchars : ∀ c ∈ t ++ WebUrl.pathText resolved, c = '/' ∨ WebUrl.isPathChar p.toRuntime c = true := by
      intro c hc
      have hmem : c ∈ WebUrl.pathText (WebUrl.resolveSegments [] (rest.splitOn '/')) := by
        rw [hresolved, htext]
        exact List.mem_cons_of_mem _ hc
      rw [← WebUrl.parsePath_plain true hplain] at hmem
      exact (WebUrl.mem_parsePath hmem).imp_right And.left
    have hle := length_normalize hd hchars h
    have hnil : (WebUrl.pathText []).length = 0 := rfl
    rw [List.length_cons] at hlt
    omega

/-! ## The forms of an identity -/

/-- When a text is split at its first slash and at another one, the path of the second split ends that of the first. -/
theorem suffix_of_split {name rest host path : List Char} (hname : '/' ∉ name) (h : host ++ '/' :: path = name ++ '/' :: rest) :
    rest = path ∨ ∃ a, rest = a ++ '/' :: path := by
  rcases List.append_eq_append_iff.mp h with ⟨a, ha, hrest⟩ | ⟨a, ha, hrest⟩
  · cases a with
    | nil => exact .inl (List.cons.inj hrest).2.symm
    | cons c a =>
      obtain rfl : '/' = c := (List.cons.inj hrest).1
      exact absurd (ha ▸ List.mem_append_right _ List.mem_cons_self) hname
  · cases a with
    | nil => exact .inl (List.cons.inj hrest).2
    | cons c a => exact .inr ⟨a, (List.cons.inj hrest).2⟩

/-- A split of the key of a lowercase identity at its first slash is written as it is read when its characters and segments are. -/
theorem written_of_split (hl : p.LowersTexts) {name rest host path : List Char} (hname : '/' ∉ name)
    (heq : host ++ '/' :: path = name ++ '/' :: rest) (hhost : p.toLowerCase host = host) (hpath : p.toLowerCase path = path)
    (hne : path ≠ []) (hlast : path.getLast? ≠ some '/') (hgit : ¬ ".git".toList <:+ path) (hkept : p.parseHost name = some name)
    (hhead : rest.head? ≠ some '/') (hplain : ∀ c ∈ rest, c = '/' ∨ WebUrl.isPathChar p.toRuntime c = true)
    (hsegments : ∀ s ∈ rest.splitOn '/', WebUrl.isDotSegment s = false) : Written p name rest := by
  have hlower : p.toLowerCase (name ++ '/' :: rest) = name ++ '/' :: rest := by rw [← heq, hl.slash, hhost, hpath]
  have hrest := suffix_of_split hname heq
  refine ⟨hkept, ?_, hhead, ?_, (lowercase_split hl hname hlower).2, ?_, hplain, hsegments⟩
  · rcases hrest with rfl | ⟨a, rfl⟩
    · exact hne
    · simp
  · rcases hrest with rfl | ⟨a, rfl⟩
    · exact hlast
    · rwa [List.getLast?_append_cons, List.getLast?_cons_of_ne_nil hne]
  · rcases hrest with rfl | ⟨a, rfl⟩
    · exact hgit
    · intro hsuffix
      rcases List.suffix_or_suffix_of_suffix hsuffix (List.suffix_append a ('/' :: path)) with h | h
      · rcases List.suffix_cons_iff.mp h with h | h
        · exact absurd (List.cons.inj h).1 (by decide)
        · exact hgit h
      · exact absurd (h.subset List.mem_cons_self) (by decide)

/-- Two splits of one text make the same texts of it. -/
theorem splits_eq {host path name rest : List Char} (h : host ++ '/' :: path = name ++ '/' :: rest) (before after : List Char) :
    before ++ host ++ '/' :: (path ++ after) = before ++ name ++ '/' :: (rest ++ after) := by
  rw [List.append_assoc, List.append_assoc, ← List.cons_append, ← List.cons_append, ← List.append_assoc host,
    ← List.append_assoc name, h]

/-- They make the same forms. -/
theorem forms_eq {host path name rest : List Char} (h : host ++ '/' :: path = name ++ '/' :: rest) :
    httpsForm host path = httpsForm name rest ∧
      httpsForm host (path ++ ".git".toList) = httpsForm name (rest ++ ".git".toList) ∧
      sshForm host (path ++ ".git".toList) = sshForm name (rest ++ ".git".toList) := by
  have hbare := splits_eq h "https://".toList []
  rw [List.append_nil, List.append_nil] at hbare
  exact ⟨hbare, splits_eq h _ _, splits_eq h _ _⟩

/-- The split of a key at the host of the URL that its `https` form is. -/
theorem split_of_https (hd : p.Documented) (hl : p.LowersTexts) {host path : List Char}
    (h : canonicalGitRepoUrl p (httpsForm host path) = some (host ++ '/' :: path)) :
    ∃ name rest, host ++ '/' :: path = name ++ '/' :: rest ∧ p.parseHost name = some name ∧ rest.head? ≠ some '/' ∧
      (∀ c ∈ rest, c = '/' ∨ WebUrl.isPathChar p.toRuntime c = true) ∧ ∀ s ∈ rest.splitOn '/', WebUrl.isDotSegment s = false := by
  have htext : httpsForm host path = "https://".toList ++ (host ++ '/' :: path) := List.append_assoc _ _ _
  rw [htext] at h
  obtain ⟨input, url, rest, hparse, hscheme, htrim, hnormal, heq⟩ := of_https h
  have hspecial : WebUrl.isSpecial url.scheme = true := by
    rw [hscheme]
    decide
  obtain ⟨hkept, _⟩ := WebUrl.host_of_parse hd.url hparse hspecial
  rw [(host_kept hd hkept).1] at heq
  have hplain := normalize_plain hd (fun c hc => (WebUrl.mem_pathname hd.url hparse hspecial hc).imp_right And.left) hnormal
  refine ⟨url.hostname, rest, heq, hkept, ?_, hplain, ?_⟩
  · obtain ⟨rest', rfl, _, _, hhead⟩ := of_normalize hnormal
    exact head_toLowerCase hl hhead
  · obtain ⟨htrim', _, hparse'⟩ := parse_httpsForm hd hkept hplain
    have hinput : input = httpsForm url.hostname rest := by
      rw [← htrim, ← htext, (forms_eq heq).1, htrim']
    rw [hinput, hparse'] at hparse
    rw [← congrArg WebUrl.Url.pathname (Option.some.inj hparse)] at hnormal
    exact segments_of_normalize hd hplain hnormal

/-- An identity whose forms agree is written as it is read. -/
theorem readsAsWritten_of_forms (hd : p.Documented) (hl : p.LowersTexts) {host path : List Char} (hhost : p.toLowerCase host = host)
    (hpath : p.toLowerCase path = path) (hne : path ≠ []) (hlast : path.getLast? ≠ some '/') (hgit : ¬ ".git".toList <:+ path)
    (h : FormsAgree p (identityOf host path)) : ReadsAsWritten p (identityOf host path) := by
  obtain ⟨name, rest, heq, hkept, hhead, hplain, hsegments⟩ := split_of_https hd hl h.https
  have hslash := (host_kept hd hkept).2.2
  have hwritten := written_of_split hl hslash heq hhost hpath hne hlast hgit hkept hhead hplain hsegments
  have hssh : canonicalGitRepoUrl p (sshForm host (path ++ ".git".toList)) = some (host ++ '/' :: path) := h.sshGit
  have hsplit : host ++ '/' :: path = name ++ '/' :: rest := heq
  rw [(forms_eq hsplit).2.2, hsplit] at hssh
  exact ⟨name, rest, heq, hkept, (ssh_form_iff hd hwritten).mp hssh, hhead, hplain, hsegments,
    fun hcolon => no_mark_of_scp (h.scpGit hcolon)⟩

/-- An identity that is written as it is read has the forms of its key. -/
theorem forms_of_readsAsWritten (hd : p.Documented) (hl : p.LowersTexts) {host path : List Char} (hhost : p.toLowerCase host = host)
    (hpath : p.toLowerCase path = path) (hne : path ≠ []) (hhead : path.head? ≠ some '/') (hlast : path.getLast? ≠ some '/')
    (hgit : ¬ ".git".toList <:+ path) (h : ReadsAsWritten p (identityOf host path)) : FormsAgree p (identityOf host path) := by
  obtain ⟨name, rest, heq, hkept, hssh, hrest, hplain, hsegments, hmark⟩ := h
  obtain ⟨_, hname, hslash⟩ := host_kept hd hkept
  have hwritten := written_of_split hl hslash heq hhost hpath hne hlast hgit hkept hrest hplain hsegments
  obtain ⟨hhttps, hhttpsGit⟩ := https_forms hd hwritten
  obtain ⟨hform, hformGit, hformSsh⟩ := forms_eq heq
  refine ⟨?_, ?_, ?_, fun hcolon => ?_⟩
  · exact (congrArg _ hform).trans (hhttps.trans (congrArg some heq.symm))
  · exact (congrArg _ hformGit).trans (hhttpsGit.trans (congrArg some heq.symm))
  · exact (congrArg _ hformSsh).trans (((ssh_form_iff hd hwritten).mpr hssh).trans (congrArg some heq.symm))
  · have hpathPlain : ∀ c ∈ path, c = '/' ∨ WebUrl.isPathChar p.toRuntime c = true := by
      intro c hc
      refine hplain c ?_
      rcases suffix_of_split hslash heq with rfl | ⟨a, rfl⟩
      · exact hc
      · exact List.mem_append_right _ (List.mem_cons_of_mem _ hc)
    obtain ⟨hplainGit, hlowerGit⟩ := plain_git hd hpathPlain hpath
    have hhostne : host ≠ [] := by
      rintro rfl
      obtain ⟨c, name', rfl⟩ := List.exists_cons_of_ne_nil hname
      obtain rfl : '/' = c := (List.cons.inj heq).1
      exact hslash List.mem_cons_self
    exact scp_form hcolon hhostne hhost hne hhead hpath hlowerGit (no_line_plain hplainGit) (hmark hcolon)

/-- An identity is canonical. -/
theorem isCanonical (hd : p.Documented) (hl : p.LowersTexts) {value : List Char} {identity : CanonicalGitRepoIdentity}
    (h : canonicalGitRepoIdentity p value = some identity) : IsCanonical p value identity := by
  obtain ⟨host, rest, rfl, hne, hhead, hclean⟩ := path_spec h
  have hhost := hl.idempotent host
  have hpath := hl.idempotent rest
  have hpathHead := head_toLowerCase hl hhead
  have hpathNe : p.toLowerCase rest ≠ [] := fun hnil => hne (hl.nonempty rest hnil)
  have hlast : ¬ NestedSuffix p value → (p.toLowerCase rest).getLast? ≠ some '/' := fun hnested =>
    last_toLowerCase hl (hclean hnested).1
  have hgit : ¬ NestedSuffix p value → ¬ ".git".toList <:+ p.toLowerCase rest := fun hnested hsuffix =>
    Bool.false_ne_true ((hclean hnested).2.symm.trans (List.isSuffixOf_iff_suffix.mpr hsuffix))
  refine ⟨rfl, hhost, hpath, hpathHead, hlast, hgit, fun hnested => ⟨fun hforms => ?_, fun hwritten => ?_⟩⟩
  · exact readsAsWritten_of_forms hd hl hhost hpath hpathNe (hlast hnested) (hgit hnested) hforms
  · exact forms_of_readsAsWritten hd hl hhost hpath hpathNe hpathHead (hlast hnested) (hgit hnested) hwritten

/-! ## Comparing by a key -/

/-- The web origin two references must share: at a GitLab without a connection, the origin of an `https` URL. -/
def sharedOrigin (p : Platform) (provider : ContextTreeProvider) (origin : Option (List Char)) (value : List Char) :
    Option (List Char) :=
  match provider, origin with
  | .github, _ => none
  | .gitlab, some (_ :: _) => none
  | .gitlab, _ => httpsRepositoryOrigin p value

/-- The key of a reference that resolves and is accepted: its canonical key, and the origin that is compared. -/
def HasKey (p : Platform) (provider : ContextTreeProvider) (origin value : Option (List Char))
    (key : List Char × Option (List Char)) : Prop :=
  ∃ text identity, value = some text ∧ canonicalGitRepoIdentity p text = some identity ∧ AcceptedBy p provider origin text ∧
    key = (identity.canonical, sharedOrigin p provider origin text)

/-- A reference has one key. -/
theorem HasKey.unique {provider : ContextTreeProvider} {origin value : Option (List Char)} {key key' : List Char × Option (List Char)}
    (h : HasKey p provider origin value key) (h' : HasKey p provider origin value key') : key = key' := by
  obtain ⟨text, identity, rfl, hidentity, _, rfl⟩ := h
  obtain ⟨text', identity', heq, hidentity', _, rfl⟩ := h'
  obtain rfl := Option.some.inj heq
  rw [hidentity] at hidentity'
  rw [Option.some.inj hidentity']

/-- Origins are the same when both are missing, or both are there and equal. -/
theorem origins_eq_iff {a b : Option (List Char)} :
    (if a ≠ none ∨ b ≠ none then decide (a ≠ none ∧ b ≠ none ∧ a = b) else true) = true ↔ a = b := by
  cases a <;> cases b <;> simp

/-- Two references of one canonical key are the same when the rule of the provider accepts both and they share the origin. -/
theorem same_of_identities {provider : ContextTreeProvider} {origin : Option (List Char)} {a b : List Char}
    {l r : CanonicalGitRepoIdentity} (hl : canonicalGitRepoIdentity p a = some l) (hr : canonicalGitRepoIdentity p b = some r) :
    sameContextTreeRepository p provider origin (some a) (some b) = true ↔
      l.canonical = r.canonical ∧ AcceptedBy p provider origin a ∧ AcceptedBy p provider origin b ∧
        sharedOrigin p provider origin a = sharedOrigin p provider origin b := by
  unfold sameContextTreeRepository
  simp only [Option.bind_some, hl, hr]
  by_cases hcanonical : l.canonical = r.canonical
  · rw [if_neg (not_not.mpr hcanonical)]
    cases provider with
    | github => simp [hcanonical, AcceptedBy, sharedOrigin]
    | gitlab =>
      match origin with
      | none => exact origins_eq_iff.trans (by simp [hcanonical, AcceptedBy, sharedOrigin])
      | some [] => exact origins_eq_iff.trans (by simp [hcanonical, AcceptedBy, sharedOrigin])
      | some (c :: origin) => simp [hcanonical, AcceptedBy, sharedOrigin]
  · simp [hcanonical]

/-- References that are the same resolve. -/
theorem resolve_of_same {provider : ContextTreeProvider} {origin left right : Option (List Char)}
    (h : sameContextTreeRepository p provider origin left right = true) :
    ∃ a b l r, left = some a ∧ right = some b ∧ canonicalGitRepoIdentity p a = some l ∧ canonicalGitRepoIdentity p b = some r := by
  unfold sameContextTreeRepository at h
  split at h
  · rename_i l r hl hr
    obtain ⟨a, rfl, hl⟩ := Option.bind_eq_some_iff.mp hl
    obtain ⟨b, rfl, hr⟩ := Option.bind_eq_some_iff.mp hr
    exact ⟨a, b, l, r, rfl, rfl, hl, hr⟩
  · cases h

/-- Two references are the same repository when they have a key in common. -/
theorem same_iff (provider : ContextTreeProvider) (origin left right : Option (List Char)) :
    sameContextTreeRepository p provider origin left right = true ↔
      ∃ key, HasKey p provider origin left key ∧ HasKey p provider origin right key := by
  constructor
  · intro h
    obtain ⟨a, b, l, r, rfl, rfl, hl, hr⟩ := resolve_of_same h
    obtain ⟨hcanonical, haccept, haccept', hshared⟩ := (same_of_identities hl hr).mp h
    exact ⟨_, ⟨a, l, rfl, hl, haccept, rfl⟩, ⟨b, r, rfl, hr, haccept', by rw [hcanonical, hshared]⟩⟩
  · rintro ⟨_, ⟨a, l, rfl, hl, haccept, rfl⟩, ⟨b, r, rfl, hr, haccept', heq⟩⟩
    obtain ⟨hcanonical, hshared⟩ := Prod.mk.inj heq
    exact (same_of_identities hl hr).mpr ⟨hcanonical, haccept, haccept', hshared⟩

/-- A comparison by a key is symmetric, transitive, and reflexive where there is a key. -/
theorem comparesRepositories (provider : ContextTreeProvider) (origin : Option (List Char)) :
    ComparesRepositories p provider origin where
  symmetric left right h := by
    obtain ⟨key, hleft, hright⟩ := (same_iff provider origin left right).mp h
    exact (same_iff provider origin right left).mpr ⟨key, hright, hleft⟩
  transitive left middle right h h' := by
    obtain ⟨key, hleft, hmiddle⟩ := (same_iff provider origin left middle).mp h
    obtain ⟨key', hmiddle', hright⟩ := (same_iff provider origin middle right).mp h'
    obtain rfl := hmiddle.unique hmiddle'
    exact (same_iff provider origin left right).mpr ⟨key, hleft, hright⟩
  reflexive value := by
    rw [same_iff]
    constructor
    · rintro ⟨_, ⟨text, identity, heq, hidentity, haccept, _⟩, _⟩
      obtain rfl := Option.some.inj heq
      exact ⟨Option.isSome_iff_exists.mpr ⟨identity, hidentity⟩, haccept⟩
    · rintro ⟨hsome, haccept⟩
      obtain ⟨identity, hidentity⟩ := Option.isSome_iff_exists.mp hsome
      exact ⟨_, ⟨value, identity, rfl, hidentity, haccept, rfl⟩, ⟨value, identity, rfl, hidentity, haccept, rfl⟩⟩

end RepositoryIdentityAux

open RepositoryIdentity RepositoryIdentityAux

/-- The identity of a reference is lowercase, and unless a slash or another `.git` stands before the `.git` of its path, it has no
slash at the end and no `.git`, and the forms of its host and path have its key exactly when URLs read them as they are written.
Comparing references is symmetric and transitive, and reflexive on those that resolve and that the rule of the provider accepts.
-/
theorem repository_identity_canonical (p : Platform) (documented : p.Documented) (lowers : p.LowersTexts) :
    (∀ value identity, canonicalGitRepoIdentity p value = some identity → IsCanonical p value identity) ∧
      ∀ provider origin, ComparesRepositories p provider origin :=
  ⟨fun _ _ h => isCanonical documented lowers h, comparesRepositories⟩

namespace RepositoryIdentityAux

open ContextSourceLinkExample

/-- Only ASCII characters are lowercased to others. -/
theorem toLower_eq_or_ascii (c : Char) : c.toLower = c ∨ c.toNat < 128 := by
  unfold Char.toLower
  split
  · rename_i h
    have hle : c.toNat ≤ 'Z'.toNat := h.2
    exact .inr (Nat.lt_of_le_of_lt hle (by decide))
  · exact .inl rfl

/-- Lowercasing a letter twice is lowercasing it, and no letter is lowercased to a slash. -/
theorem toLower_spec (c : Char) : c.toLower.toLower = c.toLower ∧ (c.toLower = '/' → c = '/') := by
  rcases toLower_eq_or_ascii c with h | h
  · rw [h, h]
    exact ⟨rfl, id⟩
  · have key : ∀ n : Fin 128, (Char.ofNat n.val).toLower.toLower = (Char.ofNat n.val).toLower ∧
        ((Char.ofNat n.val).toLower = '/' → Char.ofNat n.val = '/') := by decide
    have hc : c = Char.ofNat c.toNat := (Char.ofNat_toNat c).symm
    rw [hc]
    exact key ⟨c.toNat, h⟩

/-- A platform that lowercases letter by letter lowers texts as documented. -/
theorem platform_lowersTexts : platform.LowersTexts where
  idempotent t := by
    have : (t.map Char.toLower).map Char.toLower = t.map Char.toLower := by
      rw [List.map_map]
      exact List.map_congr_left fun c _ => (toLower_spec c).1
    exact this
  slash a b := List.map_append
  noSlash t h := by
    obtain ⟨c, hc, hlower⟩ := List.mem_map.mp h
    rwa [(toLower_spec c).2 hlower] at hc
  nonempty t h := List.map_eq_nil_iff.mp h

end RepositoryIdentityAux

open ContextSourceLinkExample in
/-- The forms of an ordinary repository name one identity. -/
theorem repository_identity_canonical_ordinary :
    IsCanonical platform "git@GitHub.com:Acme/Tree.git".toList ⟨"github.com/acme/tree".toList, "github.com".toList,
      "acme/tree".toList⟩ :=
  (repository_identity_canonical platform platform_documented platform_lowersTexts).1 _ _ (by decide)

open ContextSourceLinkExample in
/-- A repository elsewhere resolves, and is not the same GitHub repository as itself. -/
theorem foreign_repository_not_reflexive :
    canonicalGitRepoIdentity platform "https://gitlab.example/a/b".toList =
        some ⟨"gitlab.example/a/b".toList, "gitlab.example".toList, "a/b".toList⟩ ∧
      sameContextTreeRepository platform .github none (some "https://gitlab.example/a/b".toList)
        (some "https://gitlab.example/a/b".toList) = false := by
  decide

end FirstTree
