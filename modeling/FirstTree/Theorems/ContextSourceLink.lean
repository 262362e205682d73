import FirstTree.Shared.ContextSourceLink

/-!
# Links to cited sources read back

A link `contextTreeSourceHref` builds is read back by `parseExactContextSourceLink` as the same commit, node path and repository
exactly when the reader sees the repository path as it was written: no character of it is escaped, no segment is empty or moves,
none is a `blob` before a commit, the last is not the dash of a scoped route the link does not have, and the path does not end in
`.git` once more (`source_link_reads_back_iff`). The builder checks none of this.
-/

namespace FirstTree

open ContextSourceLink

/-- What is documented of a platform: the URL standard, lowercasing of ASCII, and that GitHub's name is a host. -/
structure Platform.Documented (p : Platform) : Prop where
  url : p.toRuntime.Documented
  lowerAscii : ∀ t : List Char, (∀ c ∈ t, c.toNat < 128) → p.toLowerCase t = t.map Char.toLower
  githubHost : p.parseHost "github.com".toList = some "github.com".toList

/-- The path of a repository address: what follows its host. -/
def repositoryPathOf (repoUrl : List Char) : List Char :=
  ((repoUrl.drop "https://".length).dropWhile (· ≠ '/')).drop 1

/-- A link reads back: the same commit up to letter case, the same node path, and a repository whose path is the canonical one. -/
def ReadsBack (p : Platform) (source : ContextTreeSourceRef) (link : List Char) : Prop :=
  ∃ parsed identity, parseExactContextSourceLink p link = some parsed ∧
    canonicalGitRepoIdentity p source.repoUrl = some identity ∧
    parsed.commit = source.commit.map Char.toLower ∧ parsed.nodePath = source.nodePath ∧
    repositoryPathOf parsed.repoUrl = identity.path

/-- The route of a link: GitHub's has no dash, and GitLab's by the version. -/
def linkRoute (identity : CanonicalGitRepoIdentity) (gitlabVersion : Option (List Char)) : GitLabBlobRoute :=
  if identity.host = "github.com".toList then .blob else (gitlabBlobRouteForVersion gitlabVersion).getD .blob

/-- A repository path the reader sees as it was written. -/
structure CitablePath (p : Platform) (route : GitLabBlobRoute) (path : List Char) : Prop where
  plain : ∀ c ∈ path, c = '/' ∨ WebUrl.isPathChar p.toRuntime c = true
  segments : ∀ s ∈ path.splitOn '/', s ≠ [] ∧ WebUrl.isDotSegment s = false
  noGitSuffix : hasGitSuffix path = false
  noBlob : ∀ before commit after, path.splitOn '/' = before ++ "blob".toList :: commit :: after → isExactCommit commit = false
  noDash : route = .blob → (path.splitOn '/').getLast? ≠ some ['-']

namespace ContextSourceLinkAux

/-! ## The blob segment -/

/-- The first `blob` before a commit, and no earlier one. -/
theorem splitAtBlob_some {l before after : List (List Char)} {commit : List Char} (h : splitAtBlob l = some (before, commit, after)) :
    l = before ++ "blob".toList :: commit :: after ∧ isExactCommit commit = true ∧
      ∀ b c a, l = b ++ "blob".toList :: c :: a → isExactCommit c = true → before.length ≤ b.length := by
  induction l using splitAtBlob.induct generalizing before with
  | case1 => exact absurd h nofun
  | case2 s => exact absurd h nofun
  | case3 segment next rest hb =>
    rw [splitAtBlob, if_pos hb] at h
    obtain ⟨rfl, rfl, rfl⟩ : [] = before ∧ next = commit ∧ rest = after := by simpa using h
    exact ⟨by rw [hb.1]; rfl, hb.2, fun b c a _ _ => Nat.zero_le _⟩
  | case4 segment next rest hb ih =>
    rw [splitAtBlob, if_neg hb] at h
    obtain ⟨⟨b', c', a'⟩, hf, heq⟩ := Option.map_eq_some_iff.mp h
    obtain ⟨rfl, rfl, rfl⟩ : segment :: b' = before ∧ c' = commit ∧ a' = after := by simpa using heq
    obtain ⟨hl, hc, hmin⟩ := ih hf
    refine ⟨by rw [hl]; rfl, hc, fun b c a hba hca => ?_⟩
    cases b with
    | nil =>
      obtain ⟨rfl, hrest⟩ := List.cons.inj hba
      obtain ⟨rfl, -⟩ := List.cons.inj hrest
      exact absurd ⟨rfl, hca⟩ hb
    | cons x b =>
      obtain ⟨-, hrest⟩ := List.cons.inj hba
      have := hmin b c a hrest hca
      simp only [List.length_cons]
      omega

/-- A `blob` before a commit is found. -/
theorem splitAtBlob_isSome (b : List (List Char)) {c : List Char} (a : List (List Char)) (hc : isExactCommit c = true) :
    ∃ before commit after, splitAtBlob (b ++ "blob".toList :: c :: a) = some (before, commit, after) := by
  induction b with
  | nil => exact ⟨[], c, a, by rw [List.nil_append, splitAtBlob, if_pos ⟨rfl, hc⟩]⟩
  | cons x b ih =>
    obtain ⟨before, commit, after, h⟩ := ih
    obtain ⟨y, l, hyl⟩ := List.exists_cons_of_ne_nil (show b ++ "blob".toList :: c :: a ≠ [] by simp)
    rw [hyl] at h
    rw [List.cons_append, hyl]
    by_cases hx : x = "blob".toList ∧ isExactCommit y = true
    · exact ⟨[], y, l, by rw [splitAtBlob, if_pos hx]⟩
    · exact ⟨x :: before, commit, after, by rw [splitAtBlob, if_neg hx, h]; rfl⟩

/-! ## Suffixes and slashes -/

/-- The segments of a text are one more than its slashes. -/
theorem length_splitOn (t : List Char) : (t.splitOn '/').length = t.count '/' + 1 := by
  induction t with
  | nil => rfl
  | cons c t ih =>
    rw [List.splitOn_cons_eq_if_modifyHead]
    by_cases hc : c = '/'
    · subst hc
      simp [ih]
    · simp [hc, ih]

/-- A text with the suffix is a text and four characters, none of them a slash. -/
theorem hasGitSuffix_split {t : List Char} (h : hasGitSuffix t = true) :
    ∃ stem suffix, t = stem ++ suffix ∧ suffix.length = 4 ∧ '/' ∉ suffix ∧ dropGitSuffix t = stem := by
  have hs := h
  simp only [hasGitSuffix, List.isSuffixOf_iff_suffix] at hs
  obtain ⟨l, hl⟩ := hs
  have hlen : l.length + 4 = t.length := by
    have := congrArg List.length hl
    simpa using this
  refine ⟨t.take (t.length - 4), t.drop (t.length - 4), (List.take_append_drop _ _).symm, by simp; omega, ?_, ?_⟩
  · intro hm
    have hm' : Char.toLower '/' ∈ (t.drop (t.length - 4)).map Char.toLower := List.mem_map_of_mem hm
    have hdrop : (t.drop (t.length - 4)).map Char.toLower = ".git".toList := by
      rw [List.map_drop, ← hl, List.drop_append_of_le_length (by omega), List.drop_eq_nil_of_le (by omega), List.nil_append]
    rw [hdrop] at hm'
    exact absurd hm' (by decide)
  · rw [dropGitSuffix, if_pos h]

/-- Dropping the suffix leaves as many slashes. -/
theorem count_dropGitSuffix (t : List Char) : (dropGitSuffix t).count '/' = t.count '/' := by
  cases h : hasGitSuffix t
  · simp [dropGitSuffix, h]
  · obtain ⟨stem, suffix, rfl, -, hslash, hdrop⟩ := hasGitSuffix_split h
    rw [hdrop, List.count_append, List.count_eq_zero.mpr hslash, Nat.add_zero]

/-- Dropping the suffix leaves a text as it is only if it has none. -/
theorem dropGitSuffix_eq_self {t : List Char} (h : dropGitSuffix t = t) : hasGitSuffix t = false := by
  cases hs : hasGitSuffix t
  · rfl
  · obtain ⟨stem, suffix, ht, hlen, -, hdrop⟩ := hasGitSuffix_split hs
    have := congrArg List.length (hdrop.symm.trans h)
    rw [ht, List.length_append] at this
    omega

/-- A character of a text without its suffix is one of the text. -/
theorem mem_dropGitSuffix {t : List Char} {c : Char} (h : c ∈ dropGitSuffix t) : c ∈ t := by
  simp only [dropGitSuffix] at h
  split at h
  · exact List.mem_of_mem_take h
  · exact h

/-- A character of joined texts is the separator or one of theirs. -/
theorem mem_intercalate {l : List (List Char)} {c : Char} (h : c ∈ ['/'].intercalate l) : c = '/' ∨ ∃ s ∈ l, c ∈ s := by
  induction l with
  | nil => exact absurd h (by simp)
  | cons s l ih =>
    cases l with
    | nil => exact Or.inr ⟨s, List.mem_cons_self, by simpa using h⟩
    | cons r l =>
      rw [List.intercalate_cons_cons, List.mem_append, List.mem_append, List.mem_singleton] at h
      rcases h with (h | h) | h
      · exact Or.inr ⟨s, List.mem_cons_self, h⟩
      · exact Or.inl h
      · rcases ih h with h | ⟨x, hx, hc⟩
        · exact Or.inl h
        · exact Or.inr ⟨x, List.mem_cons_of_mem _ hx, hc⟩

/-! ## Node segments -/

/-- The encoding of a segment of a node path. -/
def encodeSegment (segment : List Char) : List Char := escapeMarks (encodeURIComponent segment)

/-- The characters the encoding of a segment keeps. -/
def isSegmentChar (c : Char) : Bool := isUriUnreserved c && ! (['!', '\x27', '(', ')', '*'].contains c)

/-- The two passes escape the characters either escapes. -/
theorem encodeSegment_eq (segment : List Char) : encodeSegment segment = PercentCoding.encode isSegmentChar segment := by
  refine PercentCoding.encode_encode (fun c hc => ?_) segment
  have key : ∀ d ∈ ('%' :: PercentCoding.hexDigits), (! (['!', '\x27', '(', ')', '*'].contains d)) = true :=
    List.all_iff_forall_prop.mp (by decide)
  exact key c (List.mem_cons.mpr hc)

/-- An encoded segment decodes to the segment. -/
theorem decode_encodeSegment (segment : List Char) : PercentCoding.decode (encodeSegment segment) = some segment := by
  rw [encodeSegment_eq]
  exact PercentCoding.decode_encode (by decide) segment

/-- A character a segment keeps is one of a short list. -/
theorem isSegmentChar_mem {c : Char} (h : isSegmentChar c = true) :
    c ∈ "0123456789ABCDEFGHIJKLMNOPQRSTUVWXYZabcdefghijklmnopqrstuvwxyz-_.~".toList := by
  have hlt : c.toNat < 128 := by
    simp only [isSegmentChar, isUriUnreserved, Bool.and_eq_true, Bool.or_eq_true] at h
    rcases h.1 with h | h
    · unfold Char.isAlphanum Char.isAlpha Char.isUpper Char.isLower Char.isDigit at h
      simp only [Bool.or_eq_true, Bool.and_eq_true, decide_eq_true_eq, UInt32.le_iff_toNat_le, ge_iff_le] at h
      have h₀ : c.toNat = c.val.toNat := rfl
      have h₁ : 'Z'.val.toNat = 90 := rfl
      have h₂ : 'z'.val.toNat = 122 := rfl
      have h₃ : '9'.val.toNat = 57 := rfl
      omega
    · have key : ∀ d ∈ ['-', '_', '.', '!', '~', '*', '\x27', '(', ')'], d.toNat < 128 := List.all_iff_forall_prop.mp (by decide)
      exact key c (by simpa using h)
  have key : ∀ n : Fin 128, isSegmentChar (Char.ofNat n.val) = true →
      Char.ofNat n.val ∈ "0123456789ABCDEFGHIJKLMNOPQRSTUVWXYZabcdefghijklmnopqrstuvwxyz-_.~".toList := by decide +kernel
  have := key ⟨c.toNat, hlt⟩
  rw [Char.ofNat_toNat] at this
  exact this h

/-- An encoded segment is made of path characters, and of no slash. -/
theorem mem_encodeSegment (rt : WebUrl.Runtime) {segment : List Char} {c : Char} (h : c ∈ encodeSegment segment) :
    WebUrl.isPathChar rt c = true ∧ c ≠ '/' := by
  rw [encodeSegment_eq] at h
  rcases PercentCoding.mem_encode h with ⟨hk, -⟩ | he
  · have key : ∀ d ∈ "0123456789ABCDEFGHIJKLMNOPQRSTUVWXYZabcdefghijklmnopqrstuvwxyz-_.~".toList,
        (∀ b, (decide (0x21 ≤ d.toNat) && decide (d.toNat ≤ 0x7e) &&
          ! (['\x22', '#', '<', '>', '?', '\x60', '\x7b', '\x7d'].contains d) && ! (b && d = '^') && d ≠ '\x5c') = true) ∧ d ≠ '/' :=
          List.all_iff_forall_prop.mp (by decide)
    have := key c (isSegmentChar_mem hk)
    exact ⟨this.1 rt.escapesCaret, this.2⟩
  · exact WebUrl.keepsInPath_escape rt he

/-- A dot segment decodes to dots. -/
theorem decode_dotSegment {s : List Char} (h : WebUrl.isDotSegment s = true) :
    PercentCoding.decode s = some ['.'] ∨ PercentCoding.decode s = some ['.', '.'] := by
  simp only [WebUrl.isDotSegment, WebUrl.isSingleDot, WebUrl.isDoubleDot, Bool.or_eq_true, List.contains_eq_mem,
    decide_eq_true_eq] at h
  rcases h with h | h
  · have key : ∀ t ∈ WebUrl.dots, PercentCoding.decode t = some ['.'] := by decide
    exact Or.inl (key s h)
  · have key : ∀ t ∈ WebUrl.dots.flatMap fun a => WebUrl.dots.map (a ++ ·), PercentCoding.decode t = some ['.', '.'] := by decide
    exact Or.inr (key s h)

/-- The encoding of a segment of a node path is no empty segment and no dot segment. -/
theorem encodeSegment_plain {segment : List Char} (h : isNodeSegment segment = true) :
    encodeSegment segment ≠ [] ∧ WebUrl.isDotSegment (encodeSegment segment) = false := by
  simp only [isNodeSegment, Bool.and_eq_true, Bool.not_eq_true', decide_eq_true_eq] at h
  have hdecode := decode_encodeSegment segment
  refine ⟨fun he => ?_, ?_⟩
  · rw [he] at hdecode
    obtain rfl : [] = segment := Option.some.inj hdecode
    exact absurd h.1.1.1 (by decide)
  · cases hd : WebUrl.isDotSegment (encodeSegment segment)
    · rfl
    · rcases decode_dotSegment hd with hd | hd
      · exact absurd (Option.some.inj (hdecode.symm.trans hd)) h.1.1.2
      · exact absurd (Option.some.inj (hdecode.symm.trans hd)) h.1.2

/-- An encoded node path, by its segments. -/
theorem encodeSourceNodePath_some {nodePath enc : List Char} (h : encodeSourceNodePath nodePath = some enc) :
    nodePath ≠ [] ∧ (∀ s ∈ nodePath.splitOn '/', isNodeSegment s = true) ∧
      enc = ['/'].intercalate ((nodePath.splitOn '/').map encodeSegment) := by
  simp only [encodeSourceNodePath] at h
  split at h
  · exact absurd h nofun
  · next hc =>
    simp only [not_or] at hc
    exact ⟨hc.1, by simpa using hc.2.2.2.2.2, (Option.some.inj h).symm⟩

/-- The segments of an encoded node path. -/
theorem splitOn_encoded (nodePath : List Char) :
    (['/'].intercalate ((nodePath.splitOn '/').map encodeSegment)).splitOn '/' = (nodePath.splitOn '/').map encodeSegment := by
  refine List.splitOn_intercalate '/' (fun s hs hm => ?_) (by simp)
  obtain ⟨segment, -, rfl⟩ := List.mem_map.mp hs
  exact (mem_encodeSegment ⟨fun _ => none, fun _ => none, fun _ _ => none, false⟩ hm).2 rfl

/-- The encoded segments decode to the node path. -/
theorem decodeNodePath_encoded (nodePath : List Char) :
    decodeNodePath ((nodePath.splitOn '/').map encodeSegment) = some nodePath := by
  have key : ∀ l : List (List Char), (l.map encodeSegment).mapM PercentCoding.decode = some l := by
    intro l
    induction l with
    | nil => rfl
    | cons s l ih => simp [List.mapM_cons, decode_encodeSegment, ih]
  rw [decodeNodePath, key]
  simp

/-! ## Built links -/

/-- A plain text of lowercase characters is left by lowercasing. -/
theorem toLowerCase_plain {p : Platform} (hd : p.Documented) {t : List Char} (h : ∀ c ∈ t, WebUrl.isPlainLower c = true) :
    p.toLowerCase t = t := by
  have hplain : ∀ c ∈ t, c.toNat < 128 ∧ c.toLower = c := by
    intro c hc
    have := h c hc
    simp only [WebUrl.isPlainLower, Bool.and_eq_true, decide_eq_true_eq, Bool.not_eq_true'] at this
    refine ⟨by omega, ?_⟩
    have hup : ¬ (c.val ≥ 'A'.val ∧ c.val ≤ 'Z'.val) := by
      have := this.2
      unfold Char.isUpper at this
      simp only [decide_eq_false_iff_not] at this
      tauto
    unfold Char.toLower
    rw [dif_neg hup]
  rw [hd.lowerAscii t fun c hc => (hplain c hc).1]
  exact (List.map_congr_left fun c hc => (hplain c hc).2).trans (List.map_id _)

/-- The web origin of a connected GitLab, where it is an `https` one: a serialised host and a port. -/
theorem gitlab_origin {p : Platform} (hd : p.Documented) {value : Option (List Char)} {origin : List Char}
    (h : normalizeGitLabWebOrigin p value = some origin) (hs : "https://".toList.isPrefixOf origin = true) :
    ∃ host port, p.parseHost host = some host ∧ WebUrl.IsPort "https".toList port ∧
      origin = "https://".toList ++ (host ++ WebUrl.portText port) := by
  simp only [normalizeGitLabWebOrigin, Option.bind_eq_bind, Option.bind_eq_some_iff, Option.pure_def, Option.some.injEq,
    Option.guard_eq_some'] at h
  obtain ⟨v, -, url, hurl, -, hg, rfl⟩ := h
  have hspecial : WebUrl.isSpecial url.scheme = true := by
    rcases hg.1 with hsc | hsc <;> rw [hsc] <;> decide
  obtain ⟨hhost, hport⟩ := WebUrl.host_of_parse hd.url hurl hspecial
  have hplain : ∀ c ∈ url.origin, WebUrl.isPlainLower c = true := by
    intro c hc
    have hscheme : ∀ d ∈ "https://".toList, WebUrl.isPlainLower d = true := List.all_iff_forall_prop.mp (by decide)
    simp only [WebUrl.Url.origin, List.mem_append] at hc
    rcases hc with (hc | hc) | hc
    · rcases hg.1 with hsc | hsc
      · rw [hsc] at hc
        exact hscheme c (List.mem_append_left "://".toList hc)
      · rw [hsc] at hc
        have hsub : ∀ d ∈ "http".toList, d ∈ "https://".toList := List.all_iff_forall_prop.mp (by decide)
        exact hscheme c (hsub c hc)
    · have hsub : ∀ d ∈ "://".toList, d ∈ "https://".toList := List.all_iff_forall_prop.mp (by decide)
      exact hscheme c (hsub c hc)
    · exact (WebUrl.host_port_plain (hd.url.hostText hhost) url.port c hc).1
  rw [toLowerCase_plain hd hplain] at hs ⊢
  rcases hg.1 with hsc | hsc
  · rw [hsc] at hport
    exact ⟨url.hostname, url.port, hhost, hport, by simp only [WebUrl.Url.origin, WebUrl.Url.host, hsc]; rfl⟩
  · rw [WebUrl.Url.origin, hsc] at hs
    exact absurd hs (by simp [List.isPrefixOf])

/-- A built link, by the host it goes to. -/
theorem built_link {p : Platform} (hd : p.Documented) {source : ContextTreeSourceRef} {origin version : Option (List Char)}
    {link : List Char} (h : contextTreeSourceHref p source origin version = some link) :
    ∃ identity enc host port, canonicalGitRepoIdentity p source.repoUrl = some identity ∧ isExactCommit source.commit = true ∧
      encodeSourceNodePath source.nodePath = some enc ∧ p.parseHost host = some host ∧ WebUrl.IsPort "https".toList port ∧
      link = "https://".toList ++ (host ++ WebUrl.portText port) ++
        '/' :: (identity.path ++ (routeText (linkRoute identity version) ++ (source.commit ++ '/' :: enc))) := by
  simp only [contextTreeSourceHref, Option.bind_eq_bind, Option.bind_eq_some_iff, Option.guard_eq_some'] at h
  obtain ⟨-, ⟨hcommit, -⟩, identity, hidentity, enc, henc, h⟩ := h
  split at h
  · next hgithub =>
    obtain rfl := Option.some.inj h
    refine ⟨identity, enc, "github.com".toList, none, hidentity, hcommit, henc, hd.githubHost, nofun, ?_⟩
    simp [blobLink, linkRoute, hgithub, WebUrl.portText]
  · next hgithub =>
    simp only [Option.bind_eq_some_iff, Option.guard_eq_some', Option.pure_def, Option.some.injEq] at h
    obtain ⟨gitlab, hgitlab, -, ⟨-, hprefix⟩, route, hroute, rfl⟩ := h
    simp only [resolveGitLabRepositoryWebIdentity, Option.bind_eq_bind, Option.bind_eq_some_iff, Option.guard_eq_some',
      Option.pure_def, Option.some.injEq] at hgitlab
    obtain ⟨o, horigin, identity', hidentity', -, -, _, -, _, -, rfl⟩ := hgitlab
    obtain rfl : identity' = identity := Option.some.inj (hidentity'.symm.trans hidentity)
    obtain ⟨host, port, hhost, hport, ho⟩ := gitlab_origin hd horigin hprefix
    refine ⟨identity', enc, host, port, hidentity, hcommit, henc, hhost, hport, ?_⟩
    have hlink : linkRoute identity' version = route := by
      rw [linkRoute, if_neg hgithub, hroute]
      rfl
    rw [hlink, ho, blobLink]
    simp only [List.append_assoc, List.cons_append]

/-! ## Reading a link -/

/-- What the reader makes of the segments of a link. -/
def readSegments (p : Platform) (host : List Char) (segments : List (List Char)) : Option ExactContextSourceLink := do
  let (before, commit, after) ← splitAtBlob segments
  guard (before ≠ [] ∧ after ≠ [] ∧ repositorySegments before ≠ [])
  let repositoryPath := dropGitSuffix (['/'].intercalate (repositorySegments before))
  let nodePath ← decodeNodePath after
  guard (repositoryPath ≠ [] ∧ nodePath ≠ [])
  pure
    { commit := p.toLowerCase commit
      nodePath := nodePath
      repoUrl := "https".toList ++ "://".toList ++ host ++ '/' :: repositoryPath
      repositoryIdentity := p.toLowerCase host ++ '/' :: p.toLowerCase repositoryPath }

/-- The segments of a path the reader looks at. -/
def pathSegments (pathname : List Char) : List (List Char) := (pathname.splitOn '/').filter fun segment => ! segment.isEmpty

/-- A link that is read is an `https` URL, read by its segments. -/
theorem parseExact_some {p : Platform} {link : List Char} {parsed : ExactContextSourceLink}
    (h : parseExactContextSourceLink p link = some parsed) :
    ∃ url, WebUrl.parse p.toRuntime link = some url ∧ url.scheme = "https".toList ∧
      readSegments p url.host (pathSegments url.pathname) = some parsed := by
  simp only [parseExactContextSourceLink, Option.bind_eq_bind, Option.bind_eq_some_iff] at h
  obtain ⟨url, hurl, _, hg, h⟩ := h
  rw [Option.guard_eq_some'] at hg
  refine ⟨url, hurl, hg.1, ?_⟩
  simp only [readSegments, pathSegments, Option.bind_eq_bind, Option.bind_eq_some_iff]
  rw [hg.1] at h
  exact h

/-- What the reader answers, by the segments it split a link into. -/
theorem readSegments_some {p : Platform} {host : List Char} {segments : List (List Char)} {parsed : ExactContextSourceLink}
    (h : readSegments p host segments = some parsed) :
    ∃ before commit after, splitAtBlob segments = some (before, commit, after) ∧ repositorySegments before ≠ [] ∧
      parsed.repoUrl = "https".toList ++ "://".toList ++ host ++
        '/' :: dropGitSuffix (['/'].intercalate (repositorySegments before)) := by
  simp only [readSegments, Option.bind_eq_bind, Option.bind_eq_some_iff, Option.guard_eq_some', Option.pure_def,
    Option.some.injEq] at h
  obtain ⟨⟨before, commit, after⟩, hsplit, _, hg, nodePath, -, _, -, rfl⟩ := h
  exact ⟨before, commit, after, hsplit, hg.2.2, rfl⟩

/-- The path of an address behind a host without slashes. -/
theorem repositoryPathOf_address {host path : List Char} (h : '/' ∉ host) :
    repositoryPathOf ("https".toList ++ "://".toList ++ host ++ '/' :: path) = path := by
  have hdrop : ("https".toList ++ "://".toList ++ host ++ '/' :: path).drop "https://".length = host ++ '/' :: path := by
    rfl
  rw [repositoryPathOf, hdrop, List.dropWhile_append_of_pos fun c hc => by simpa using fun he : c = '/' => h (he ▸ hc)]
  simp

/-- The host of a parsed link holds no slash. -/
theorem host_no_slash {p : Platform} (hd : p.Documented) {link : List Char} {url : WebUrl.Url}
    (h : WebUrl.parse p.toRuntime link = some url) (hs : url.scheme = "https".toList) : '/' ∉ url.host := by
  have hspecial : WebUrl.isSpecial url.scheme = true := by rw [hs]; decide
  intro hm
  have := (WebUrl.host_port_plain (hd.url.hostText (WebUrl.host_of_parse hd.url h hspecial).1) url.port '/' hm).2
  exact this (by simp)

/-- The repository path of a link that is read is made of slashes and path characters. -/
theorem mem_repositoryPath {p : Platform} (hd : p.Documented) {link : List Char} {parsed : ExactContextSourceLink}
    (h : parseExactContextSourceLink p link = some parsed) {c : Char} (hc : c ∈ repositoryPathOf parsed.repoUrl) :
    c = '/' ∨ WebUrl.isPathChar p.toRuntime c = true := by
  obtain ⟨url, hurl, hs, hread⟩ := parseExact_some h
  obtain ⟨before, commit, after, hsplit, -, hrepo⟩ := readSegments_some hread
  rw [hrepo, repositoryPathOf_address (host_no_slash hd hurl hs)] at hc
  rcases mem_intercalate (mem_dropGitSuffix hc) with hc | ⟨s, hs', hc⟩
  · exact Or.inl hc
  · have hbefore : s ∈ before := by
      simp only [repositorySegments] at hs'
      split at hs'
      · exact (List.dropLast_sublist before).subset hs'
      · exact hs'
    have hseg : s ∈ pathSegments url.pathname := by
      rw [(splitAtBlob_some hsplit).1]
      exact List.mem_append_left _ hbefore
    have hin : c ∈ url.pathname := by
      rw [pathSegments, List.mem_filter, List.splitOn_eq_splitOnP] at hseg
      exact (WebUrl.not_mem_splitOnP hseg.1 hc).2
    have hspecial : WebUrl.isSpecial url.scheme = true := by rw [hs]; decide
    rcases WebUrl.mem_pathname hd.url hurl hspecial hin with h | h
    · exact Or.inl h
    · exact Or.inr h.1

/-! ## The segments of a built link -/

/-- The segments a route puts before its `blob`. -/
def routePrefix : GitLabBlobRoute → List (List Char)
  | .blob => []
  | .dashBlob => [['-']]

/-- The segments of a link behind the repository path. -/
def linkTail (route : GitLabBlobRoute) (commit nodePath : List Char) : List (List Char) :=
  routePrefix route ++ "blob".toList :: commit :: (nodePath.splitOn '/').map encodeSegment

/-- A full object id holds no slash, is not empty and is no dot segment. -/
theorem isExactCommit_plain (rt : WebUrl.Runtime) {commit : List Char} (h : isExactCommit commit = true) :
    (∀ c ∈ commit, WebUrl.isPathChar rt c = true ∧ c ≠ '/' ∧ c.toNat < 128) ∧ commit ≠ [] ∧ WebUrl.isDotSegment commit = false := by
  simp only [isExactCommit, Bool.and_eq_true, Bool.or_eq_true, decide_eq_true_eq, List.all_eq_true] at h
  have hlen : 40 ≤ commit.length := by omega
  refine ⟨fun c hc => ?_, fun he => ?_, ?_⟩
  · have hlt : c.toNat < 128 := by
      have := h.2 c hc
      simp only [isHexDigit, Bool.or_eq_true, Bool.and_eq_true, decide_eq_true_eq, Char.isDigit] at this
      have h₀ : c.toNat = c.val.toNat := rfl
      rcases this with (h | h) | h
      · have : c.toNat ≤ 57 := h.2
        omega
      · have : c.toNat ≤ 102 := h.2
        omega
      · have : c.toNat ≤ 70 := h.2
        omega
    have key : ∀ n : Fin 128, isHexDigit (Char.ofNat n.val) = true → ∀ b, (decide (0x21 ≤ (Char.ofNat n.val).toNat) &&
        decide ((Char.ofNat n.val).toNat ≤ 0x7e) &&
          ! (['\x22', '#', '<', '>', '?', '\x60', '\x7b', '\x7d'].contains (Char.ofNat n.val)) &&
        ! (b && Char.ofNat n.val = '^') && Char.ofNat n.val ≠ '\x5c') = true ∧ Char.ofNat n.val ≠ '/' := by decide
    have := key ⟨c.toNat, hlt⟩
    rw [Char.ofNat_toNat] at this
    have := this (h.2 c hc) rt.escapesCaret
    exact ⟨this.1, this.2, hlt⟩
  · rw [he] at hlen
    exact absurd hlen (by decide)
  · cases hd : WebUrl.isDotSegment commit
    · rfl
    · simp only [WebUrl.isDotSegment, WebUrl.isSingleDot, WebUrl.isDoubleDot, Bool.or_eq_true, List.contains_eq_mem,
        decide_eq_true_eq] at hd
      have key₁ : ∀ t ∈ WebUrl.dots, t.length < 40 := by decide
      have key₂ : ∀ t ∈ WebUrl.dots.flatMap fun a => WebUrl.dots.map (a ++ ·), t.length < 40 := by decide
      rcases hd with hd | hd
      · exact absurd (key₁ _ hd) (by omega)
      · exact absurd (key₂ _ hd) (by omega)

/-- The segments behind the repository path are not empty, do not move and hold no slash. -/
theorem mem_linkTail {route : GitLabBlobRoute} {commit nodePath : List Char} (hc : isExactCommit commit = true)
    (hn : ∀ s ∈ nodePath.splitOn '/', isNodeSegment s = true) {s : List Char} (h : s ∈ linkTail route commit nodePath) :
    s ≠ [] ∧ WebUrl.isDotSegment s = false ∧ '/' ∉ s := by
  have rt : WebUrl.Runtime := ⟨fun _ => none, fun _ => none, fun _ _ => none, false⟩
  simp only [linkTail, List.mem_append, List.mem_cons, List.mem_map] at h
  rcases h with h | rfl | rfl | ⟨segment, hs, rfl⟩
  · cases route with
    | blob => exact absurd h (by simp [routePrefix])
    | dashBlob =>
      obtain rfl : s = ['-'] := by simpa [routePrefix] using h
      decide
  · decide
  · obtain ⟨hchars, hne, hdot⟩ := isExactCommit_plain rt hc
    exact ⟨hne, hdot, fun hm => (hchars _ hm).2.1 rfl⟩
  · obtain ⟨hne, hdot⟩ := encodeSegment_plain (hn segment hs)
    exact ⟨hne, hdot, fun hm => (mem_encodeSegment rt hm).2 rfl⟩

/-- The path of a built link, behind the host. -/
def linkPath (path : List Char) (route : GitLabBlobRoute) (commit nodePath : List Char) : List Char :=
  path ++ (routeText route ++ (commit ++ '/' :: ['/'].intercalate ((nodePath.splitOn '/').map encodeSegment)))

/-- The path of a built link is split into the segments of the repository and the rest. -/
theorem splitOn_linkPath (path : List Char) (route : GitLabBlobRoute) {commit : List Char} (nodePath : List Char)
    (hc : isExactCommit commit = true) :
    (linkPath path route commit nodePath).splitOn '/' = path.splitOn '/' ++ linkTail route commit nodePath := by
  have hslash : '/' ∉ commit := fun hm =>
    ((isExactCommit_plain ⟨fun _ => none, fun _ => none, fun _ _ => none, false⟩ hc).1 _ hm).2.1 rfl
  have htail : (commit ++ '/' :: ['/'].intercalate ((nodePath.splitOn '/').map encodeSegment)).splitOn '/' =
      commit :: (nodePath.splitOn '/').map encodeSegment := by
    rw [List.splitOn_append_cons_self_of_not_mem hslash, splitOn_encoded]
  have hblob : ∀ rest : List Char, ("blob".toList ++ '/' :: rest).splitOn '/' = "blob".toList :: rest.splitOn '/' :=
    fun rest => List.splitOn_append_cons_self_of_not_mem (by decide) rest
  cases route with
  | blob =>
    have hroute : ∀ rest : List Char, routeText .blob ++ rest = '/' :: ("blob".toList ++ '/' :: rest) := fun rest => rfl
    rw [linkPath, hroute, List.splitOn_append_cons_self, hblob, htail]
    rfl
  | dashBlob =>
    have hroute : ∀ rest : List Char, routeText .dashBlob ++ rest = '/' :: (['-'] ++ '/' :: ("blob".toList ++ '/' :: rest)) :=
      fun rest => rfl
    rw [linkPath, hroute, List.splitOn_append_cons_self, List.splitOn_append_cons_self_of_not_mem (by decide), hblob, htail]
    rfl

/-- The path of a built link is plain when the repository path is. -/
theorem mem_linkPath {rt : WebUrl.Runtime} {path : List Char} (route : GitLabBlobRoute) {commit : List Char} (nodePath : List Char)
    (hpath : ∀ c ∈ path, c = '/' ∨ WebUrl.isPathChar rt c = true) (hc : isExactCommit commit = true) :
    ∀ c ∈ linkPath path route commit nodePath, c = '/' ∨ WebUrl.isPathChar rt c = true := by
  intro c hm
  simp only [linkPath, List.mem_append, List.mem_cons] at hm
  rcases hm with hm | hm | hm | rfl | hm
  · exact hpath c hm
  · have key : ∀ d ∈ routeText .dashBlob ++ routeText .blob, d = '/' ∨ ∀ b, (decide (0x21 ≤ d.toNat) && decide (d.toNat ≤ 0x7e) &&
        ! (['\x22', '#', '<', '>', '?', '\x60', '\x7b', '\x7d'].contains d) && ! (b && d = '^') && d ≠ '\x5c') = true :=
        List.all_iff_forall_prop.mp (by decide)
    have hmem : c ∈ routeText .dashBlob ++ routeText .blob := by
      cases route with
      | blob => exact List.mem_append_right _ hm
      | dashBlob => exact List.mem_append_left _ hm
    rcases key c hmem with h | h
    · exact Or.inl h
    · exact Or.inr (h rt.escapesCaret)
  · exact Or.inr ((isExactCommit_plain rt hc).1 c hm).1
  · exact Or.inl rfl
  · rcases mem_intercalate hm with hm | ⟨s, hs, hm⟩
    · exact Or.inl hm
    · obtain ⟨segment, -, rfl⟩ := List.mem_map.mp hs
      exact Or.inr (mem_encodeSegment rt hm).1

/-- The repository segments the URL parser leaves. -/
def resolvedSegments (path : List Char) : List (List Char) :=
  ((path.splitOn '/').foldl WebUrl.stepSegment []).filter fun segment => ! segment.isEmpty

/-- No segment the URL parser leaves holds a slash. -/
theorem no_slash_of_mem {path commit nodePath : List Char} {route : GitLabBlobRoute} (hc : isExactCommit commit = true)
    (hn : ∀ s ∈ nodePath.splitOn '/', isNodeSegment s = true) {s : List Char}
    (h : s ∈ (path.splitOn '/').foldl WebUrl.stepSegment [] ++ linkTail route commit nodePath) : '/' ∉ s := by
  rw [← WebUrl.resolveSegments_append (fun s hs => (mem_linkTail hc hn hs).2.1) (by simp [linkTail])] at h
  rcases WebUrl.mem_resolveSegments h with rfl | h | h
  · simp
  · exact absurd h (by simp)
  · rcases List.mem_append.mp h with h | h
    · exact WebUrl.not_mem_of_mem_splitOn h
    · exact (mem_linkTail hc hn h).2.2

/-- A built link with a plain repository path is read by the resolved segments of that path and the rest of the link. -/
theorem parse_built {p : Platform} (hd : p.Documented) {host path commit nodePath : List Char} {port : Option Nat}
    {route : GitLabBlobRoute} (hh : p.parseHost host = some host) (hp : WebUrl.IsPort "https".toList port)
    (hpath : ∀ c ∈ path, c = '/' ∨ WebUrl.isPathChar p.toRuntime c = true) (hc : isExactCommit commit = true)
    (hn : ∀ s ∈ nodePath.splitOn '/', isNodeSegment s = true) :
    parseExactContextSourceLink p
      ("https://".toList ++ (host ++ WebUrl.portText port) ++ '/' :: linkPath path route commit nodePath) =
      readSegments p (host ++ WebUrl.portText port) (resolvedSegments path ++ linkTail route commit nodePath) := by
  have htail : ∀ s ∈ linkTail route commit nodePath, s ≠ [] ∧ WebUrl.isDotSegment s = false ∧ '/' ∉ s :=
    fun s hs => mem_linkTail hc hn hs
  have hne : linkTail route commit nodePath ≠ [] := by simp [linkTail]
  have hresolve : WebUrl.resolveSegments [] ((linkPath path route commit nodePath).splitOn '/') =
      (path.splitOn '/').foldl WebUrl.stepSegment [] ++ linkTail route commit nodePath := by
    rw [splitOn_linkPath path route nodePath hc, WebUrl.resolveSegments_append (fun s hs => (htail s hs).2.1) hne]
  have hsegments : pathSegments (WebUrl.pathText ((path.splitOn '/').foldl WebUrl.stepSegment [] ++ linkTail route commit nodePath)) =
      resolvedSegments path ++ linkTail route commit nodePath := by
    have hkeep : (linkTail route commit nodePath).filter (fun segment => ! segment.isEmpty) = linkTail route commit nodePath :=
      List.filter_eq_self.mpr fun s hs => by simpa using (htail s hs).1
    rw [pathSegments, WebUrl.splitOn_pathText fun s hs => no_slash_of_mem hc hn hs, List.filter_cons_of_neg (by simp),
      List.filter_append, hkeep, resolvedSegments]
  have hparse := WebUrl.parse_plain hd.url hh hp (mem_linkPath route nodePath hpath hc)
  rw [hresolve] at hparse
  rw [parseExactContextSourceLink, hparse, ← hsegments]
  rfl

/-! ## When a built link reads back -/

/-- The resolved segments are at most those of the path, and as many only when none is empty or moves. -/
theorem length_resolvedSegments (path : List Char) :
    (resolvedSegments path).length ≤ (path.splitOn '/').length ∧
      ((resolvedSegments path).length = (path.splitOn '/').length →
        resolvedSegments path = path.splitOn '/' ∧ ∀ s ∈ path.splitOn '/', s ≠ [] ∧ WebUrl.isDotSegment s = false) := by
  obtain ⟨hle₁, heq₁⟩ := WebUrl.length_foldl_stepSegment [] (path.splitOn '/')
  obtain ⟨hle₂, heq₂⟩ := WebUrl.length_filter_nonempty ((path.splitOn '/').foldl WebUrl.stepSegment [])
  rw [List.length_nil, Nat.zero_add] at hle₁ heq₁
  rw [resolvedSegments]
  refine ⟨hle₂.trans hle₁, fun h => ?_⟩
  obtain ⟨hfold, hdot⟩ := heq₁ (by omega)
  obtain ⟨hfilter, hne⟩ := heq₂ (by omega)
  rw [List.nil_append] at hfold
  rw [hfilter, hfold]
  exact ⟨rfl, fun s hs => ⟨hne s (by rw [hfold]; exact hs), hdot s hs⟩⟩

/-- If the reader finds as many repository segments as the path has, it split the link where the builder joined it. -/
theorem split_of_length {path : List Char} {route : GitLabBlobRoute} {commit nodePath : List Char} {before after : List (List Char)}
    {c : List Char} (hc : isExactCommit commit = true)
    (h : splitAtBlob (resolvedSegments path ++ linkTail route commit nodePath) = some (before, c, after))
    (hlen : (repositorySegments before).length = (path.splitOn '/').length) :
    before = resolvedSegments path ++ routePrefix route ∧ repositorySegments before = resolvedSegments path ∧
      (resolvedSegments path).length = (path.splitOn '/').length := by
  obtain ⟨hl, -, hmin⟩ := splitAtBlob_some h
  have hle := (length_resolvedSegments path).1
  have hbefore := hmin (resolvedSegments path ++ routePrefix route) commit _ (by rw [linkTail, List.append_assoc]) hc
  have hrepo : (repositorySegments before).length ≤ before.length := by
    simp only [repositorySegments]
    split <;> simp
  cases route with
  | blob =>
    rw [routePrefix, List.append_nil] at hbefore ⊢
    have heq : before = resolvedSegments path := ((List.append_inj_left hl (by omega)).symm)
    refine ⟨heq, ?_, by omega⟩
    -- A dash at the end would be dropped, and the repository one segment shorter.
    simp only [repositorySegments] at hlen ⊢
    split
    · next hd =>
      rw [if_pos hd, List.length_dropLast] at hlen
      have : before ≠ [] := by
        rintro rfl
        exact absurd hd (by simp)
      have := List.length_pos_iff.mpr this
      omega
    · exact heq
  | dashBlob =>
    rw [routePrefix, List.length_append, List.length_singleton] at hbefore
    by_cases hfull : before.length = (resolvedSegments path).length + 1
    · have hsplit : resolvedSegments path ++ linkTail .dashBlob commit nodePath =
          (resolvedSegments path ++ [['-']]) ++ "blob".toList :: commit :: (nodePath.splitOn '/').map encodeSegment := by
        simp [linkTail, routePrefix]
      rw [hsplit] at hl
      have heq : before = resolvedSegments path ++ [['-']] := (List.append_inj_left hl (by simp [hfull])).symm
      have hdash : repositorySegments before = resolvedSegments path := by simp [repositorySegments, heq]
      refine ⟨heq, hdash, ?_⟩
      rw [← hlen, hdash]
    · -- Then the reader stopped at the dash, which is no blob.
      have heq := List.append_inj_right hl (by omega)
      obtain ⟨hdash, -⟩ := List.cons.inj heq
      exact absurd hdash (by decide)

/-- A link that reads back has a repository path the reader sees as it was written. -/
theorem citable_of_readsBack {p : Platform} (hd : p.Documented) {source : ContextTreeSourceRef} {origin version : Option (List Char)}
    {link : List Char} (built : contextTreeSourceHref p source origin version = some link) (h : ReadsBack p source link)
    {identity : CanonicalGitRepoIdentity} (hidentity : canonicalGitRepoIdentity p source.repoUrl = some identity) :
    CitablePath p (linkRoute identity version) identity.path := by
  obtain ⟨identity', enc, host, port, hi, hcommit, henc, hhost, hport, rfl⟩ := built_link hd built
  obtain rfl : identity' = identity := Option.some.inj (hi.symm.trans hidentity)
  obtain ⟨hnode, hsegs, rfl⟩ := encodeSourceNodePath_some henc
  obtain ⟨parsed, identity', hparsed, hi', -, -, hpath⟩ := h
  obtain rfl := Option.some.inj (hi'.symm.trans hidentity)
  have hplain : ∀ c ∈ identity'.path, c = '/' ∨ WebUrl.isPathChar p.toRuntime c = true := by
    intro c hc
    rw [← hpath] at hc
    exact mem_repositoryPath hd hparsed hc
  rw [show _ ++ (routeText (linkRoute identity' version) ++ _) =
    linkPath identity'.path (linkRoute identity' version) source.commit source.nodePath from rfl,
    parse_built hd hhost hport hplain hcommit hsegs] at hparsed
  obtain ⟨before, c, after, hsplit, hne, hrepo⟩ := readSegments_some hparsed
  have hhostslash : '/' ∉ host ++ WebUrl.portText port := fun hm =>
    (WebUrl.host_port_plain (hd.url.hostText hhost) port '/' hm).2 (by simp)
  rw [hrepo, repositoryPathOf_address hhostslash] at hpath
  obtain ⟨hl, -, hmin⟩ := splitAtBlob_some hsplit
  -- The path has as many slashes as the repository the reader joined.
  have hslash : ∀ s ∈ repositorySegments before, '/' ∉ s := by
    intro s hs
    have hb : s ∈ before := by
      simp only [repositorySegments] at hs
      split at hs
      · exact (List.dropLast_sublist before).subset hs
      · exact hs
    have hm : s ∈ resolvedSegments identity'.path ++ linkTail (linkRoute identity' version) source.commit source.nodePath := by
      rw [hl]
      exact List.mem_append_left _ hb
    have hall : s ∈ (identity'.path.splitOn '/').foldl WebUrl.stepSegment [] ++
        linkTail (linkRoute identity' version) source.commit source.nodePath := by
      rcases List.mem_append.mp hm with hm | hm
      · exact List.mem_append_left _ (List.mem_of_mem_filter hm)
      · exact List.mem_append_right _ hm
    exact no_slash_of_mem hcommit hsegs hall
  have hlen : (repositorySegments before).length = (identity'.path.splitOn '/').length := by
    rw [length_splitOn, ← hpath, count_dropGitSuffix, ← length_splitOn, List.splitOn_intercalate '/' hslash hne]
  obtain ⟨hbefore, hrepository, hcount⟩ := split_of_length hcommit hsplit hlen
  obtain ⟨hresolved, hsegments⟩ := (length_resolvedSegments identity'.path).2 hcount
  refine ⟨hplain, hsegments, ?_, ?_, ?_⟩
  · refine dropGitSuffix_eq_self ?_
    rw [hrepository, hresolved, List.intercalate_splitOn] at hpath
    exact hpath
  · intro b c' a hS
    cases hc' : isExactCommit c'
    · rfl
    · have := hmin b c' (a ++ linkTail (linkRoute identity' version) source.commit source.nodePath)
        (by rw [hresolved, hS]; simp) hc'
      rw [hbefore, hresolved, hS] at this
      simp only [List.length_append, List.length_cons] at this
      omega
  · intro hroute hlast
    rw [hbefore, hroute, routePrefix, List.append_nil, hresolved, repositorySegments, if_pos hlast] at hrepository
    have hpos := List.length_pos_iff.mpr (List.splitOn_ne_nil '/' identity'.path)
    have := congrArg List.length hrepository
    rw [List.length_dropLast] at this
    omega

/-- The blob of the route is the first one, where the repository path has none. -/
theorem splitAtBlob_built {path : List Char} {route : GitLabBlobRoute} {commit nodePath : List Char}
    (hc : isExactCommit commit = true)
    (hblob : ∀ b c a, path.splitOn '/' = b ++ "blob".toList :: c :: a → isExactCommit c = false) :
    splitAtBlob (path.splitOn '/' ++ linkTail route commit nodePath) =
      some (path.splitOn '/' ++ routePrefix route, commit, (nodePath.splitOn '/').map encodeSegment) := by
  have hassoc : path.splitOn '/' ++ linkTail route commit nodePath =
      (path.splitOn '/' ++ routePrefix route) ++ "blob".toList :: commit :: (nodePath.splitOn '/').map encodeSegment := by
    rw [linkTail, List.append_assoc]
  obtain ⟨before, c, after, h⟩ :=
    splitAtBlob_isSome (path.splitOn '/' ++ routePrefix route) ((nodePath.splitOn '/').map encodeSegment) hc
  rw [hassoc, h]
  obtain ⟨hl, hcommit, hmin⟩ := splitAtBlob_some h
  have hle := hmin _ commit _ rfl hc
  have hblobCommit : isExactCommit "blob".toList = false := by decide
  have hdash : isExactCommit ['-'] = false := by decide
  rcases List.append_eq_append_iff.mp hl with ⟨extra, hb, hrest⟩ | ⟨extra, hb, hrest⟩
  · obtain rfl : extra = [] := by
      rw [hb, List.length_append] at hle
      exact List.length_eq_zero_iff.mp (by omega)
    rw [List.append_nil] at hb
    rw [List.nil_append] at hrest
    simp only [List.cons.injEq, true_and] at hrest
    rw [hb, hrest.1, hrest.2]
  · cases extra with
    | nil =>
      rw [List.append_nil] at hb
      simp only [List.nil_append, List.cons.injEq, true_and] at hrest
      rw [hb, hrest.1, hrest.2]
    | cons x extra =>
      obtain ⟨hx, hrest⟩ := List.cons.inj hrest
      cases extra with
      | nil =>
        obtain ⟨hy, -⟩ := List.cons.inj hrest
        rw [hy, hblobCommit] at hcommit
        exact absurd hcommit nofun
      | cons y extra =>
        obtain ⟨hy, -⟩ := List.cons.inj hrest
        subst hx hy
        -- An earlier blob before a commit would lie in the repository path.
        cases route with
        | blob =>
          rw [routePrefix, List.append_nil] at hb
          rw [hblob _ _ _ hb] at hcommit
          exact absurd hcommit nofun
        | dashBlob =>
          rcases List.eq_nil_or_concat extra with rfl | ⟨extra, z, rfl⟩
          · have := congrArg List.getLast? hb
            simp only [routePrefix, List.getLast?_append, List.getLast?_cons_cons, List.getLast?_singleton, Option.some_or,
              Option.some.injEq] at this
            rw [← this, hdash] at hcommit
            exact absurd hcommit nofun
          · rw [List.concat_eq_append, ← List.cons_append, ← List.cons_append, ← List.append_assoc] at hb
            have := List.append_inj_left' hb rfl
            rw [hblob _ _ _ this] at hcommit
            exact absurd hcommit nofun

/-- A link whose repository path the reader sees as it was written reads back. -/
theorem readsBack_of_citable {p : Platform} (hd : p.Documented) {source : ContextTreeSourceRef} {origin version : Option (List Char)}
    {link : List Char} (built : contextTreeSourceHref p source origin version = some link)
    (h : ∀ identity, canonicalGitRepoIdentity p source.repoUrl = some identity →
      CitablePath p (linkRoute identity version) identity.path) : ReadsBack p source link := by
  obtain ⟨identity, enc, host, port, hi, hcommit, henc, hhost, hport, rfl⟩ := built_link hd built
  obtain ⟨hnode, hsegs, rfl⟩ := encodeSourceNodePath_some henc
  have hcite := h identity hi
  have hdot : ∀ s ∈ identity.path.splitOn '/', WebUrl.isDotSegment s = false := fun s hs => (hcite.segments s hs).2
  have hresolved : resolvedSegments identity.path = identity.path.splitOn '/' := by
    rw [resolvedSegments, WebUrl.foldl_stepSegment_plain hdot, List.nil_append]
    exact List.filter_eq_self.mpr fun s hs => by simpa using (hcite.segments s hs).1
  have hrepository : repositorySegments (identity.path.splitOn '/' ++ routePrefix (linkRoute identity version)) =
      identity.path.splitOn '/' := by
    cases hroute : linkRoute identity version with
    | blob => rw [routePrefix, List.append_nil, repositorySegments, if_neg (hcite.noDash hroute)]
    | dashBlob => simp [routePrefix, repositorySegments]
  have hne : identity.path.splitOn '/' ≠ [] := List.splitOn_ne_nil '/' _
  have hpathne : identity.path ≠ [] := by
    intro he
    have := (hcite.segments [] (by rw [he]; simp)).1
    exact this rfl
  have hdrop : dropGitSuffix identity.path = identity.path := by simp [dropGitSuffix, hcite.noGitSuffix]
  have hlower : p.toLowerCase source.commit = source.commit.map Char.toLower :=
    hd.lowerAscii _ fun c hc => ((isExactCommit_plain p.toRuntime hcommit).1 c hc).2.2
  have hhostslash : '/' ∉ host ++ WebUrl.portText port := fun hm =>
    (WebUrl.host_port_plain (hd.url.hostText hhost) port '/' hm).2 (by simp)
  have hread : parseExactContextSourceLink p ("https://".toList ++ (host ++ WebUrl.portText port) ++
      '/' :: linkPath identity.path (linkRoute identity version) source.commit source.nodePath) =
      some
        { commit := source.commit.map Char.toLower
          nodePath := source.nodePath
          repoUrl := "https".toList ++ "://".toList ++ (host ++ WebUrl.portText port) ++ '/' :: identity.path
          repositoryIdentity := p.toLowerCase (host ++ WebUrl.portText port) ++ '/' :: p.toLowerCase identity.path } := by
    rw [parse_built hd hhost hport hcite.plain hcommit hsegs, hresolved, readSegments,
      splitAtBlob_built hcommit hcite.noBlob]
    simp [hrepository, hne, hdrop, hpathne, decodeNodePath_encoded, hnode, hlower]
  exact ⟨_, identity, hread, hi, rfl, rfl, repositoryPathOf_address hhostslash⟩

end ContextSourceLinkAux

open ContextSourceLinkAux

/-- A link that is built reads back as the same commit, node path and repository if and only if the reader sees the repository path as
it was written. -/
theorem source_link_reads_back_iff (p : Platform) (documented : p.Documented) (source : ContextTreeSourceRef)
    (gitlabInstanceOrigin gitlabVersion : Option (List Char)) (link : List Char)
    (built : contextTreeSourceHref p source gitlabInstanceOrigin gitlabVersion = some link) :
    ReadsBack p source link ↔
      ∀ identity, canonicalGitRepoIdentity p source.repoUrl = some identity →
        CitablePath p (linkRoute identity gitlabVersion) identity.path :=
  ⟨fun h _ hidentity => citable_of_readsBack documented built h hidentity, readsBack_of_citable documented built⟩

namespace ContextSourceLinkExample

/-- A platform whose hosts are names. -/
def platform : Platform :=
  { parseHost := fun t =>
      let host := t.map Char.toLower
      if host ≠ [] ∧ host.all WebUrl.isHostNameChar then some host else none
    parseOpaqueHost := some
    parseOther := fun _ _ => none
    escapesCaret := true
    toLowerCase := fun t => t.map Char.toLower }

/-- It behaves as documented. -/
theorem platform_documented : platform.Documented := by
  have hlower : ∀ {t h}, platform.parseHost t = some h → h ≠ [] ∧ (∀ c ∈ h, WebUrl.isHostNameChar c = true) := by
    intro t h hp
    simp only [platform] at hp
    split at hp
    · next hc =>
      obtain rfl := Option.some.inj hp
      exact ⟨hc.1, List.all_eq_true.mp hc.2⟩
    · exact absurd hp nofun
  refine ⟨⟨fun hp => Or.inl (hlower hp), fun {t h} hp => ?_, nofun⟩, fun t _ => rfl, by decide⟩
  obtain ⟨hne, hname⟩ := hlower hp
  have hself : h.map Char.toLower = h := by
    refine (List.map_congr_left fun c hc => ?_).trans (List.map_id _)
    have := hname c hc
    simp only [WebUrl.isHostNameChar, Bool.and_eq_true, Bool.not_eq_true'] at this
    have hup : ¬ (c.val ≥ 'A'.val ∧ c.val ≤ 'Z'.val) := by
      have := this.1.2
      unfold Char.isUpper at this
      simp only [decide_eq_false_iff_not] at this
      tauto
    unfold Char.toLower
    rw [dif_neg hup]
    rfl
  simp only [platform, hself]
  rw [if_pos ⟨hne, List.all_eq_true.mpr hname⟩]

/-- A node of a repository at an exact commit. -/
def cited (repoUrl : String) : ContextTreeSourceRef :=
  ⟨repoUrl.toList, "0123456789abcdef0123456789abcdef01234567".toList, "docs/a b.md".toList⟩

end ContextSourceLinkExample

open ContextSourceLinkExample in
/-- The link to a node of an ordinary repository reads back. -/
theorem source_link_reads_back_iff_ordinary :
    ReadsBack platform (cited "https://github.com/Acme/Tree.git")
      "https://github.com/acme/tree/blob/0123456789abcdef0123456789abcdef01234567/docs/a%20b.md".toList := by
  refine (source_link_reads_back_iff platform platform_documented _ none none _ (by decide)).mpr fun identity hidentity => ?_
  obtain rfl : ⟨"github.com/acme/tree".toList, "github.com".toList, "acme/tree".toList⟩ = identity :=
    Option.some.inj ((show canonicalGitRepoIdentity platform (cited "https://github.com/Acme/Tree.git").repoUrl = _ by
      decide).symm.trans hidentity)
  have hsplit : "acme/tree".toList.splitOn '/' = ["acme".toList, "tree".toList] := by decide
  refine ⟨List.all_iff_forall_prop.mp (by decide), by decide, by decide, fun before commit after h => ?_, by decide⟩
  have hmem : "blob".toList ∈ ["acme".toList, "tree".toList] := by
    rw [← hsplit, h]
    simp
  exact absurd hmem (by decide)

open ContextSourceLinkExample in
/-- The link to a node of a repository written with two slashes names another repository: not every link that is built reads back. -/
theorem source_link_double_slash :
    ¬ ∀ (p : Platform) (source : ContextTreeSourceRef) (origin version : Option (List Char)) (link : List Char), p.Documented →
      contextTreeSourceHref p source origin version = some link → ReadsBack p source link := by
  intro h
  have built : contextTreeSourceHref platform (cited "https://github.com/acme//tree") none none =
      some "https://github.com/acme//tree/blob/0123456789abcdef0123456789abcdef01234567/docs/a%20b.md".toList := by decide
  have hidentity : canonicalGitRepoIdentity platform (cited "https://github.com/acme//tree").repoUrl =
      some ⟨"github.com/acme//tree".toList, "github.com".toList, "acme//tree".toList⟩ := by decide
  have hcite := citable_of_readsBack platform_documented built (h _ _ _ _ _ platform_documented built) hidentity
  have hempty : ([] : List Char) ∈ "acme//tree".toList.splitOn '/' := by decide
  exact (hcite.segments [] hempty).1 rfl

end FirstTree
