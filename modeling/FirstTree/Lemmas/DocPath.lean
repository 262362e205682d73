import FirstTree.Lib.SelfDelimiting
import FirstTree.Lib.Trimming
import FirstTree.Shared.DocPath

/-!
# Lemmas about paths of documents

What trimming leaves alone, when a joined text has the scheme of a link, and when a joined path is normalised to itself.
-/

namespace FirstTree

open DocPath ContextSourceLink

namespace DocPathAux

open ShellCommandIo (isSpace)

/-! ## Trimming -/

/-- A text has no white space at its edges. -/
def EdgesClean (t : List Char) : Prop := (∀ c ∈ t.head?, isSpace c = false) ∧ ∀ c ∈ t.getLast?, isSpace c = false

/-- Trimming leaves no white space at the edges. -/
theorem edgesClean_trim (t : List Char) : EdgesClean (trim t) := Trimming.edgesClean_trim isSpace t

/-- A text without white space at its edges is its own trim. -/
theorem trim_eq_self {t : List Char} (h : EdgesClean t) : trim t = t := Trimming.trim_eq_self h

/-- Exactly the texts without white space at their edges are their own trim. -/
theorem trim_eq_self_iff {t : List Char} : trim t = t ↔ EdgesClean t := Trimming.trim_eq_self_iff

/-- Trimming only removes. -/
theorem trim_sublist (t : List Char) : (trim t).Sublist t := Trimming.trim_sublist isSpace t

/-! ## Joined paths -/

/-- A slash ends what can be a scheme. -/
theorem hasScheme_append {s : List Char} (hs : s ≠ []) (rest : List Char) : hasScheme (s ++ '/' :: rest) = hasScheme s := by
  cases s with
  | nil => exact absurd rfl hs
  | cons c s =>
    have hdrop : ((s ++ '/' :: rest).dropWhile isSchemeChar).head? = some ':' ↔ (s.dropWhile isSchemeChar).head? = some ':' := by
      rw [List.dropWhile_append]
      split
      · rename_i hempty
        rw [List.isEmpty_iff.mp hempty, List.dropWhile_cons_of_neg (by decide)]
        simp
      · rename_i hne
        rw [List.head?_append_of_ne_nil _ (by simpa using hne)]
    simp only [List.cons_append, hasScheme, hdrop]

/-- The segments a normalised path has. -/
def IsPart (part : List Char) : Prop := partMove part = some .down ∧ '/' ∉ part

/-- A named segment is none of those the loop skips, resolves or refuses. -/
theorem part_of_down {part : List Char} (h : partMove part = some .down) :
    part ≠ [] ∧ part ≠ ['.'] ∧ part ≠ ['.', '.'] ∧ part.head? ≠ some '.' := by
  unfold partMove at h
  split at h
  · cases h
  · rename_i hskip
    split at h
    · cases h
    · rename_i hup
      split at h
      · cases h
      · rename_i hhidden
        rw [not_or] at hskip
        exact ⟨hskip.1, hskip.2, hup, hhidden⟩

/-- A segment that is not empty and does not start with a dot is a named one. -/
theorem down_of_head {part : List Char} (hne : part ≠ []) (hdot : part.head? ≠ some '.') : partMove part = some .down := by
  have h₁ : part ≠ ['.'] := by
    rintro rfl
    exact hdot rfl
  have h₂ : part ≠ ['.', '.'] := by
    rintro rfl
    exact hdot rfl
  rw [partMove, if_neg (by simp [hne, h₁]), if_neg h₂, if_neg hdot]

/-- A text that is split holds the characters of its segments. -/
theorem mem_of_mem_split {c d : Char} {t part : List Char} (hp : part ∈ t.splitOn d) (hc : c ∈ part) : c ∈ t := by
  have hjoined : [d].intercalate (t.splitOn d) = t := List.intercalate_splitOn d
  rw [← hjoined]
  exact SelfDelimiting.mem_intercalate_of_mem hp hc

/-- What the segments of a trimmed text hold, the text holds. -/
theorem mem_of_mem_pathParts {c : Char} {t part : List Char} (hp : part ∈ pathParts t) (hc : c ∈ part) : c ∈ t := by
  unfold pathParts at hp
  have h := mem_of_mem_split hp hc
  split at h
  · exact List.mem_of_mem_tail h
  · exact h

/-- What normalising a text to a path says of both. -/
theorem normalize_eq_some {raw p : List Char} (h : normalizeDocLinkPath raw = some p) :
    trim raw ≠ [] ∧ isExternal (trim raw) = false ∧
      ∃ parts, PathStack.resolve partMove [] (pathParts (trim raw)) = some parts ∧ parts ≠ [] ∧ p = ['/'].intercalate parts := by
  unfold normalizeDocLinkPath at h
  dsimp only at h
  split at h
  · cases h
  · rename_i hne
    split at h
    · cases h
    · rename_i hext
      split at h
      · cases h
      · rename_i parts hparts
        split at h
        · cases h
        · rename_i hparts'
          exact ⟨hne, by simpa using hext, parts, hparts, hparts', (Option.some.inj h).symm⟩

/-- The segments of what is read are named, and hold no slash. -/
theorem isPart_of_resolve {t : List Char} {parts : List (List Char)}
    (h : PathStack.resolve partMove [] (pathParts t) = some parts) : ∀ part ∈ parts, IsPart part := by
  intro part hpart
  obtain ⟨hmem, hdown⟩ := PathStack.down_of_mem h part hpart
  refine ⟨hdown, ?_⟩
  unfold pathParts at hmem
  exact WebUrl.not_mem_of_mem_splitOn hmem

/-- The segments of a joined path. -/
theorem splitOn_joined {parts : List (List Char)} (hne : parts ≠ []) (hparts : ∀ part ∈ parts, IsPart part) :
    (['/'].intercalate parts).splitOn '/' = parts :=
  List.splitOn_intercalate '/' (fun part hpart => (hparts part hpart).2) hne

/-- A joined path starts with its first segment. -/
theorem head?_joined {part : List Char} {rest : List (List Char)} (h : IsPart part) :
    (['/'].intercalate (part :: rest)).head? = part.head? := by
  rw [SelfDelimiting.intercalate_cons, List.head?_append_of_ne_nil _ (part_of_down h.1).1]

/-- A normalised path is not longer than the trimmed text. -/
theorem length_joined_le {t : List Char} {parts : List (List Char)} (hne : parts ≠ [])
    (h : PathStack.resolve partMove [] (pathParts t) = some parts) : (['/'].intercalate parts).length ≤ t.length := by
  have hle := SelfDelimiting.length_intercalate_le '/' hne (PathStack.resolve_sublist h)
  rw [List.nil_append, pathParts, List.intercalate_splitOn] at hle
  refine hle.trans ?_
  split
  · exact List.length_tail ▸ Nat.sub_le _ _
  · exact Nat.le_refl _

/-- A joined path starts with no slash. -/
theorem head?_joined_ne {parts : List (List Char)} (hparts : ∀ part ∈ parts, IsPart part) :
    (['/'].intercalate parts).head? ≠ some '/' := by
  cases parts with
  | nil => simp
  | cons part rest =>
    have hpart := hparts part List.mem_cons_self
    rw [head?_joined hpart]
    intro hslash
    exact hpart.2 (List.mem_of_mem_head? hslash)

/-- A joined path is its own normal form when it has no white space at its edges, no scheme, and nothing of a query or a fragment. -/
theorem normalize_joined {parts : List (List Char)} (hne : parts ≠ []) (hparts : ∀ part ∈ parts, IsPart part)
    (hedges : EdgesClean (['/'].intercalate parts)) (hscheme : hasScheme (['/'].intercalate parts) = false)
    (hquery : ∀ c ∈ ['/'].intercalate parts, c ≠ '?' ∧ c ≠ '#') :
    normalizeDocLinkPath (['/'].intercalate parts) = some (['/'].intercalate parts) := by
  have hslash := head?_joined_ne hparts
  have hempty : ['/'].intercalate parts ≠ [] := by
    intro h
    have := splitOn_joined hne hparts
    rw [h] at this
    exact (part_of_down (hparts [] (this ▸ List.mem_singleton_self _)).1).1 rfl
  have hnothash : (['/'].intercalate parts).head? ≠ some '#' := fun h => (hquery '#' (List.mem_of_mem_head? h)).2 rfl
  have hauthority : "//".toList.isPrefixOf (['/'].intercalate parts) = false := by
    rw [Bool.eq_false_iff]
    intro h
    obtain ⟨rest, hrest⟩ := List.isPrefixOf_iff_prefix.mp h
    exact hslash (by rw [← hrest]; rfl)
  have hmark : (['/'].intercalate parts).contains '?' = false := by
    rw [Bool.eq_false_iff]
    intro h
    exact (hquery '?' (List.contains_iff_mem.mp h)).1 rfl
  have hfragment : (['/'].intercalate parts).contains '#' = false := by
    rw [Bool.eq_false_iff]
    intro h
    exact (hquery '#' (List.contains_iff_mem.mp h)).2 rfl
  have hread : PathStack.resolve partMove [] (pathParts (['/'].intercalate parts)) = some parts := by
    rw [pathParts, if_neg hslash, splitOn_joined hne hparts]
    exact PathStack.resolve_of_down fun part hpart => (hparts part hpart).1
  unfold normalizeDocLinkPath
  simp only [trim_eq_self hedges, if_neg hempty, isExternal, hnothash, hauthority, hscheme, hmark, hfragment, decide_false,
    Bool.or_self, Bool.false_eq_true, if_false, hread, if_neg hne]

end DocPathAux

end FirstTree
