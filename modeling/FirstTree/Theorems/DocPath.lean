import FirstTree.Lemmas.DocPath

/-!
# Paths and keys of documents

When `normalizeDocLinkPath` answers with a path that is its own normal form, and the keys of documents in other workspaces, which are
read back as they were built.
-/

namespace FirstTree

open DocPath ContextSourceLink

/-! ## Canonical paths -/

/-- What a normalised path should be: the normal form of itself, without a leading slash, its segments neither empty, nor dot
segments, nor hidden. -/
structure CanonicalDocPath (p : List Char) : Prop where
  canonical : isCanonicalDocLinkPath p = true
  fixed : normalizeDocLinkPath p = some p
  noLeadingSlash : p.head? ≠ some '/'
  segments : ∀ part ∈ p.splitOn '/', part ≠ [] ∧ part ≠ ['.'] ∧ part ≠ ['.', '.'] ∧ part.head? ≠ some '.'

/-- A named segment that the rest of the path never steps out of, after a part that leads back to the root. -/
def StartsWith (parts : List (List Char)) (part : List Char) : Prop :=
  ∃ pre post, parts = pre ++ part :: post ∧ partMove part = some .down ∧ PathStack.depth partMove pre = 0 ∧
    PathStack.Stays partMove post

/-- A named segment that the rest of the path never steps out of, and leads back to. -/
def EndsWith (parts : List (List Char)) (part : List Char) : Prop :=
  ∃ pre post, parts = pre ++ part :: post ∧ partMove part = some .down ∧ PathStack.depth partMove post = 0 ∧
    PathStack.Stays partMove post

/-- The segment a path starts with has no scheme and no white space in front, and the one it ends with has none behind. -/
structure EndsExposeNothing (raw : List Char) : Prop where
  first : ∀ part, StartsWith (pathParts (trim raw)) part →
    hasScheme part = false ∧ ∀ c ∈ part.head?, ShellCommandIo.isSpace c = false
  last : ∀ part, EndsWith (pathParts (trim raw)) part → ∀ c ∈ part.getLast?, ShellCommandIo.isSpace c = false

namespace DocPathAux

/-- The depth of a named segment. -/
theorem moveDepth_down {part : List Char} (h : partMove part = some .down) : PathStack.moveDepth partMove part = 1 := by
  simp [PathStack.moveDepth, h]

/-- The segment a path starts with is the first of those kept. -/
theorem startsWith_iff {t part : List Char} {first : List Char} {rest : List (List Char)}
    (h : PathStack.resolve partMove [] (pathParts t) = some (first :: rest)) : StartsWith (pathParts t) part ↔ part = first := by
  constructor
  · rintro ⟨pre, post, heq, hdown, hpre, hpost⟩
    rw [heq] at h
    obtain ⟨before, after, _, hout, hlen, _⟩ := PathStack.kept_of_stays (moveDepth_down hdown) hpost h
    rw [hpre] at hlen
    obtain rfl := List.length_eq_zero_iff.mp (by omega : before.length = 0)
    exact (List.cons.inj hout).1.symm
  · rintro rfl
    obtain ⟨pre, post, heq, _, hpre, hpost, _⟩ := PathStack.stays_of_kept [] _ h
    have hlen := PathStack.length_resolve hpre
    exact ⟨pre, post, heq, (PathStack.down_of_mem h part List.mem_cons_self).2, by simpa using hlen.symm, hpost⟩

/-- The segment a path ends with is the last of those kept. -/
theorem endsWith_iff {t part last : List Char} {init : List (List Char)}
    (h : PathStack.resolve partMove [] (pathParts t) = some (init ++ [last])) : EndsWith (pathParts t) part ↔ part = last := by
  constructor
  · rintro ⟨pre, post, heq, hdown, hpost0, hpost⟩
    rw [heq] at h
    obtain ⟨before, after, _, hout, _, hlen⟩ := PathStack.kept_of_stays (moveDepth_down hdown) hpost h
    rw [hpost0] at hlen
    obtain rfl := List.length_eq_zero_iff.mp (by omega : after.length = 0)
    exact (List.cons.inj (List.append_inj' hout rfl).2).1.symm
  · rintro rfl
    obtain ⟨pre, post, heq, _, _, hpost, hlen⟩ := PathStack.stays_of_kept _ [] h
    exact ⟨pre, post, heq, (PathStack.down_of_mem h part (by simp)).2, by simpa using hlen, hpost⟩

/-- A joined path has the scheme of its first segment. -/
theorem hasScheme_joined {part : List Char} {rest : List (List Char)} (h : IsPart part) :
    hasScheme (['/'].intercalate (part :: rest)) = hasScheme part := by
  rw [SelfDelimiting.intercalate_cons]
  split
  · rw [List.append_nil]
  · exact hasScheme_append (part_of_down h.1).1 _

/-- A joined path ends with its last segment. -/
theorem getLast?_joined {part : List Char} {init : List (List Char)} (h : IsPart part) :
    (['/'].intercalate (init ++ [part])).getLast? = part.getLast? := by
  rw [SelfDelimiting.intercalate_concat, List.getLast?_append_of_ne_nil _ (part_of_down h.1).1]

/-- A path that is its own normal form has no white space at its edges, which trimming would make shorter, and no scheme, which would
have it refused. -/
theorem clean_of_fixed {p : List Char} (h : normalizeDocLinkPath p = some p) : EdgesClean p ∧ hasScheme p = false := by
  obtain ⟨_, hext, parts, hparts, hne, heq⟩ := normalize_eq_some h
  have hlen : p.length ≤ (trim p).length := by
    have := length_joined_le hne hparts
    rwa [← heq] at this
  have htrim : trim p = p := (trim_sublist p).eq_of_length_le hlen
  rw [htrim] at hext
  simp only [isExternal, Bool.or_eq_false_iff] at hext
  exact ⟨trim_eq_self_iff.mp htrim, hext.1.1.2⟩

/-- What is left of a text that is no link holds nothing of a query or a fragment. -/
theorem query_joined {t : List Char} {parts : List (List Char)} (hext : isExternal t = false)
    (h : PathStack.resolve partMove [] (pathParts t) = some parts) : ∀ c ∈ ['/'].intercalate parts, c ≠ '?' ∧ c ≠ '#' := by
  simp only [isExternal, Bool.or_eq_false_iff] at hext
  intro c hc
  rcases SelfDelimiting.mem_intercalate hc with rfl | ⟨part, hpart, hc⟩
  · decide
  · have hmem : c ∈ t := mem_of_mem_pathParts (PathStack.down_of_mem h part hpart).1 hc
    constructor
    · rintro rfl
      exact absurd (List.contains_iff_mem.mpr hmem) (by rw [hext.1.2]; simp)
    · rintro rfl
      exact absurd (List.contains_iff_mem.mpr hmem) (by rw [hext.2]; simp)

/-- A path is canonical exactly when it is its own normal form. -/
theorem isCanonical_iff {p : List Char} : isCanonicalDocLinkPath p = true ↔ normalizeDocLinkPath p = some p := by
  unfold isCanonicalDocLinkPath
  split
  · rename_i h
    simp [h]
  · rename_i normalized h
    simp [h]

/-- The segments at the ends tell what the joined path exposes. -/
theorem endsExposeNothing_iff {raw : List Char} {parts : List (List Char)} (hne : parts ≠ [])
    (h : PathStack.resolve partMove [] (pathParts (trim raw)) = some parts) :
    EndsExposeNothing raw ↔ EdgesClean (['/'].intercalate parts) ∧ hasScheme (['/'].intercalate parts) = false := by
  have hpart := isPart_of_resolve h
  obtain ⟨first, rest, hcons⟩ := List.exists_cons_of_ne_nil hne
  obtain ⟨init, last, hconcat⟩ := (List.eq_nil_or_concat' parts).resolve_left hne
  have hfirst : IsPart first := hpart first (by simp [hcons])
  have hlast : IsPart last := hpart last (by simp [hconcat])
  have hhead : (['/'].intercalate parts).head? = first.head? := by rw [hcons, head?_joined hfirst]
  have hend : (['/'].intercalate parts).getLast? = last.getLast? := by rw [hconcat, getLast?_joined hlast]
  have hscheme : hasScheme (['/'].intercalate parts) = hasScheme first := by rw [hcons, hasScheme_joined hfirst]
  have hstart : ∀ part, StartsWith (pathParts (trim raw)) part ↔ part = first := fun part => startsWith_iff (hcons ▸ h)
  have hstop : ∀ part, EndsWith (pathParts (trim raw)) part ↔ part = last := fun part => endsWith_iff (hconcat ▸ h)
  rw [EdgesClean, hhead, hend, hscheme]
  constructor
  · intro hexpose
    obtain ⟨hs, hspace⟩ := hexpose.first first ((hstart first).mpr rfl)
    exact ⟨⟨hspace, hexpose.last last ((hstop last).mpr rfl)⟩, hs⟩
  · rintro ⟨⟨hspace, hspace'⟩, hs⟩
    refine ⟨fun part hp => ?_, fun part hp => ?_⟩
    · obtain rfl := (hstart part).mp hp
      exact ⟨hs, hspace⟩
    · obtain rfl := (hstop part).mp hp
      exact hspace'

end DocPathAux

open DocPathAux

/-- A normalised path is canonical exactly when the segments it starts and ends with expose no scheme and no white space; it never
starts with a slash, and never has an empty, a dot or a hidden segment. -/
theorem normalized_doc_path_canonical_iff {raw p : List Char} (h : normalizeDocLinkPath raw = some p) :
    CanonicalDocPath p ↔ EndsExposeNothing raw := by
  obtain ⟨_, hext, parts, hparts, hne, rfl⟩ := normalize_eq_some h
  have hpart := isPart_of_resolve hparts
  have hquery := query_joined hext hparts
  have hsegments : ∀ part ∈ (['/'].intercalate parts).splitOn '/',
      part ≠ [] ∧ part ≠ ['.'] ∧ part ≠ ['.', '.'] ∧ part.head? ≠ some '.' := by
    intro part hmem
    rw [splitOn_joined hne hpart] at hmem
    exact part_of_down (hpart part hmem).1
  have hends := endsExposeNothing_iff hne hparts
  constructor
  · intro hcanonical
    exact hends.mpr (clean_of_fixed hcanonical.fixed)
  · intro hexpose
    obtain ⟨hedges, hscheme⟩ := hends.mp hexpose
    have hfixed := normalize_joined hne hpart hedges hscheme hquery
    exact ⟨isCanonical_iff.mpr hfixed, hfixed, head?_joined_ne hpart, hsegments⟩

/-- A path that goes out of a directory again is normalised to a canonical one. -/
theorem normalized_doc_path_canonical_iff_parent :
    CanonicalDocPath "docs/b.md".toList ↔ EndsExposeNothing "docs/./x/../b.md ".toList :=
  normalized_doc_path_canonical_iff (by decide)

/-- A dot segment hides the scheme of a link, and the path that is left when it is removed is refused. -/
theorem hidden_scheme_normalized :
    normalizeDocLinkPath "./https:x".toList = some "https:x".toList ∧ ¬ CanonicalDocPath "https:x".toList :=
  ⟨by decide, fun h => absurd h.canonical (by decide)⟩

/-! ## Keys -/

namespace DocPathAux

/-- A key segment is a named segment of a path. -/
theorem isPart_of_isKeySegment {segment : List Char} (h : isKeySegment segment = true) : IsPart segment := by
  simp only [isKeySegment, Bool.and_eq_true, Bool.not_eq_true', List.isEmpty_eq_false_iff, decide_eq_true_eq] at h
  refine ⟨down_of_head h.1.1 h.2, fun hslash => ?_⟩
  rw [List.contains_iff_mem.mpr hslash] at h
  exact absurd h.1.2 (by simp)

/-- What a built key says of what it was built from. -/
theorem build_eq_some {agentSlug chatId rel k : List Char} (h : buildWorkspaceDocKey agentSlug chatId rel = some k) :
    isKeySegment (trim agentSlug) = true ∧ isKeySegment (trim chatId) = true ∧ normalizeDocLinkPath k = some k ∧
      ∃ relNorm, normalizeDocLinkPath rel = some relNorm ∧ k = trim agentSlug ++ '/' :: (trim chatId ++ '/' :: relNorm) := by
  unfold buildWorkspaceDocKey at h
  dsimp only at h
  split at h
  · rename_i hsegments
    rw [Bool.and_eq_true] at hsegments
    split at h
    · cases h
    · rename_i relNorm hrel
      split at h
      · rename_i hcanonical
        obtain rfl := Option.some.inj h
        exact ⟨hsegments.1, hsegments.2, isCanonical_iff.mp hcanonical, relNorm, hrel, rfl⟩
      · cases h
  · cases h

/-- A key in its normal form is read back, its document path in one piece. -/
theorem parse_key {slug chat relNorm rel : List Char} (hslug : IsPart slug) (hchat : IsPart chat)
    (hrel : normalizeDocLinkPath rel = some relNorm)
    (hkey : normalizeDocLinkPath (slug ++ '/' :: (chat ++ '/' :: relNorm)) = some (slug ++ '/' :: (chat ++ '/' :: relNorm))) :
    parseWorkspaceDocKey (slug ++ '/' :: (chat ++ '/' :: relNorm)) = some ⟨slug, chat, relNorm⟩ := by
  obtain ⟨_, _, parts, hparts, hne, rfl⟩ := normalize_eq_some hrel
  have hpart := isPart_of_resolve hparts
  obtain ⟨first, rest, rfl⟩ := List.exists_cons_of_ne_nil hne
  have hsplit : (slug ++ '/' :: (chat ++ '/' :: ['/'].intercalate (first :: rest))).splitOn '/' = slug :: chat :: first :: rest := by
    rw [List.splitOn_append_cons_self_of_not_mem hslug.2, List.splitOn_append_cons_self_of_not_mem hchat.2, splitOn_joined hne hpart]
  have hrelNorm : ['/'].intercalate (first :: rest) ≠ [] := by
    rw [SelfDelimiting.intercalate_cons]
    exact List.append_ne_nil_of_left_ne_nil (part_of_down (hpart first List.mem_cons_self).1).1 _
  have hempty : (slug.isEmpty || chat.isEmpty || (['/'].intercalate (first :: rest)).isEmpty) = false := by
    simp only [Bool.or_eq_false_iff, List.isEmpty_eq_false_iff]
    exact ⟨⟨(part_of_down hslug.1).1, (part_of_down hchat.1).1⟩, hrelNorm⟩
  simp only [parseWorkspaceDocKey, hkey, hsplit, hempty, Bool.false_eq_true, if_false]

end DocPathAux

/-- A key is read back as the trimmed slug, the trimmed chat id and the normalised path it was built from. Two builds give the same
key only from the same of these, and no key is read as one of another chat. -/
theorem workspace_doc_keys_round_trip :
    (∀ agentSlug chatId rel k, buildWorkspaceDocKey agentSlug chatId rel = some k →
      ∃ relNorm, normalizeDocLinkPath rel = some relNorm ∧
        parseWorkspaceDocKey k = some ⟨trim agentSlug, trim chatId, relNorm⟩) ∧
    (∀ agentSlug chatId rel agentSlug' chatId' rel' k, buildWorkspaceDocKey agentSlug chatId rel = some k →
      buildWorkspaceDocKey agentSlug' chatId' rel' = some k →
        trim agentSlug = trim agentSlug' ∧ trim chatId = trim chatId' ∧ normalizeDocLinkPath rel = normalizeDocLinkPath rel') ∧
    ∀ agentSlug chatId rel k parsed, buildWorkspaceDocKey agentSlug chatId rel = some k → parseWorkspaceDocKey k = some parsed →
      parsed.chatId = trim chatId := by
  have hparse : ∀ agentSlug chatId rel k, buildWorkspaceDocKey agentSlug chatId rel = some k →
      ∃ relNorm, normalizeDocLinkPath rel = some relNorm ∧
        parseWorkspaceDocKey k = some ⟨trim agentSlug, trim chatId, relNorm⟩ := by
    intro agentSlug chatId rel k h
    obtain ⟨hslug, hchat, hkey, relNorm, hrel, rfl⟩ := build_eq_some h
    exact ⟨relNorm, hrel, parse_key (isPart_of_isKeySegment hslug) (isPart_of_isKeySegment hchat) hrel hkey⟩
  refine ⟨hparse, fun agentSlug chatId rel agentSlug' chatId' rel' k h h' => ?_, fun agentSlug chatId rel k parsed h hparsed => ?_⟩
  · obtain ⟨relNorm, hrel, hk⟩ := hparse agentSlug chatId rel k h
    obtain ⟨relNorm', hrel', hk'⟩ := hparse agentSlug' chatId' rel' k h'
    rw [hk] at hk'
    injection hk' with hk'
    injection hk' with hslug hchat hnorm
    exact ⟨hslug, hchat, by rw [hrel, hrel', hnorm]⟩
  · obtain ⟨relNorm, _, hk⟩ := hparse agentSlug chatId rel k h
    rw [hk] at hparsed
    rw [← Option.some.inj hparsed]

end FirstTree
