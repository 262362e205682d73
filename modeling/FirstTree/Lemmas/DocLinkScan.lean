import Mathlib.Data.Bool.AllAny
import FirstTree.Lib.MarkdownBlocks
import FirstTree.Shared.DocLinkScan

/-!
# The scanner of document paths, line by line

What the patterns of the scanner match, where the paths, the links and the tags of a line lie, and which lines open a fence, close one
or are skipped.
-/

namespace FirstTree

open DocLinkScan Utf16
open Markdown (fenceRun openingFence closesFence fenceAlone)

/-- The code unit of a fence character. -/
def FenceMarker.unit : FenceMarker → UInt16
  | .backtick => tick
  | .tilde => Utf16.unit '~'

/-- A fence of the scanner. -/
def FenceState.fence (fence : FenceState) : Markdown.Fence := ⟨fence.marker.unit, fence.length⟩

/-- Four spaces or a tab in front. -/
def IsIndentedCode (line : List UInt16) : Prop :=
  List.replicate 4 (unit ' ') <+: line ∨ [unit '\t'] <+: line

instance (line : List UInt16) : Decidable (IsIndentedCode line) := inferInstanceAs (Decidable (_ ∨ _))

/-- A label in brackets, a colon and a target. -/
def IsReferenceDefinition (line : List UInt16) : Prop :=
  ∃ blanks label gap first rest, (∀ c ∈ blanks, isSpace c = true) ∧ label ≠ [] ∧ (∀ c ∈ label, c ≠ unit ']' ∧ c ≠ lineFeed) ∧
    (∀ c ∈ gap, isSpace c = true) ∧ isSpace first = false ∧
    line = blanks ++ unit '[' :: (label ++ unit ']' :: unit ':' :: (gap ++ first :: rest))

namespace DocLinkScanAux

/-! ## Characters -/

/-- A path holds no backtick, and nothing a link or a tag starts with. -/
def IsPathUnit (c : UInt16) : Prop := c ∉ units "\x60[<"

/-- A character of a segment is one of a path. -/
theorem isPathUnit_segment {c : UInt16} (h : isSegmentChar c = true) : IsPathUnit c := by
  intro hm
  have key : ∀ d ∈ units "\x60[<", isSegmentChar d = false := List.all_iff_forall_prop.mp (by decide)
  rw [key c hm] at h
  cases h

/-- A digit is one of a path. -/
theorem isPathUnit_digit {c : UInt16} (h : isDigit c = true) : IsPathUnit c :=
  isPathUnit_segment (by simp [isSegmentChar, h])

/-- What a pattern for one character matches. -/
theorem isPathUnit_chr {d : Char} (hd : IsPathUnit (unit d)) : ∀ c, (c == unit d) = true → IsPathUnit c := by
  intro c hc
  rw [beq_iff_eq.mp hc]
  exact hd

/-- A path is made of its characters, and has no groups of its own. -/
theorem pathPattern_only : pathPattern.Only IsPathUnit fun _ => False := by
  have hdot : IsPathUnit (unit '.') := by unfold IsPathUnit; decide
  have hslash : IsPathUnit (unit '/') := by unfold IsPathUnit; decide
  have hcolon : IsPathUnit (unit ':') := by unfold IsPathUnit; decide
  have hm : IsPathUnit (unit 'm') := by unfold IsPathUnit; decide
  have hd : IsPathUnit (unit 'd') := by unfold IsPathUnit; decide
  have hsegment : ∀ c, isSegmentChar c = true → IsPathUnit c := fun c => isPathUnit_segment
  have hdigit : ∀ c, isDigit c = true → IsPathUnit c := fun c => isPathUnit_digit
  have hroot : pathRoot.Only IsPathUnit fun _ => False :=
    ⟨⟨⟨isPathUnit_chr hdot, isPathUnit_chr hdot, isPathUnit_chr hslash, trivial⟩, isPathUnit_chr hslash⟩, trivial⟩
  have hsuffix : lineSuffix.Only IsPathUnit fun _ => False :=
    ⟨⟨isPathUnit_chr hcolon, ⟨hdigit, hdigit⟩, ⟨⟨isPathUnit_chr hcolon, hdigit, hdigit⟩, trivial⟩, trivial⟩, trivial⟩
  exact ⟨hroot, ⟨⟨hsegment, hsegment⟩, isPathUnit_chr hslash⟩, ⟨hsegment, hsegment⟩,
    ⟨isPathUnit_chr hdot, isPathUnit_chr hm, isPathUnit_chr hd, trivial⟩, hsuffix, trivial⟩

/-- What `BARE_PATH_RE` matches is what comes before the path, and the path. -/
theorem barePath_spec {atStart : Bool} {l : List UInt16} {m : Regex.Match UInt16} (h : (barePath atStart).exec l = some m) :
    ∃ before path, m.capture 1 = some before ∧ m.capture 2 = some path ∧ m.consumed = before ++ path ∧
      l = before ++ path ++ m.rest ∧ ∀ c ∈ path, IsPathUnit c := by
  have hrun := Regex.mem_run_of_exec h
  have hrest := Regex.consumed_append_rest hrun
  obtain ⟨m₁, h₁, m₂, h₂, rfl⟩ := Regex.mem_run_seq.mp hrun
  obtain ⟨b, hb, rfl⟩ := Regex.mem_run_group.mp h₁
  obtain ⟨m₃, h₃, m₄, h₄, rfl⟩ := Regex.mem_run_seq.mp h₂
  obtain ⟨p, hp, rfl⟩ := Regex.mem_run_group.mp h₃
  obtain rfl := Regex.eq_nothing_of_mem_ahead h₄
  have hbcap : b.captures = [] := by
    refine Regex.captures_eq_nil (Q := fun _ => True) ?_ hb
    split
    · exact ⟨trivial, fun _ _ => trivial⟩
    · exact fun _ _ => trivial
  have hpcap : p.captures = [] := Regex.captures_eq_nil pathPattern_only hp
  refine ⟨b.consumed, p.consumed, ?_, ?_, ?_, ?_, Regex.consumed_only pathPattern_only hp⟩
  · simp [Regex.Match.capture, Regex.Match.next, hbcap]
  · simp [Regex.Match.capture, Regex.Match.next, hbcap, hpcap]
  · simp [Regex.Match.next, Regex.Match.nothing]
  · rw [← hrest]
    simp [Regex.Match.next, Regex.Match.nothing]

/-! ## Paths of a line -/

/-- The scan of a line finds a path where it stands. -/
theorem mem_collect_barePathAt {line path : List UInt16} {start : Nat} (h : (start, path) ∈ Scan.collect barePathAt 0 0 line) :
    ∃ before after, line = before ++ path ++ after ∧ start = before.length ∧ ∀ c ∈ path, IsPathUnit c := by
  obtain ⟨k, hk, hm⟩ := Scan.mem_collect h
  unfold barePathAt at hm
  split at hm
  · cases hm
  · rename_i m hexec
    obtain ⟨before, path', hbefore, hpath, _, hdrop, hchars⟩ := barePath_spec hexec
    have hmatch : 0 + k + before.length = start ∧ path' = path := by
      simpa [hbefore, hpath] using hm
    obtain ⟨rfl, rfl⟩ := hmatch
    refine ⟨line.take k ++ before, m.rest, ?_, ?_, hchars⟩
    · rw [List.append_assoc, List.append_assoc, ← List.append_assoc before, ← hdrop, List.take_append_drop]
    · rw [List.length_append, List.length_take, Nat.min_eq_left (Nat.le_of_lt hk), Nat.zero_add]

/-- The paths of a line come one after the other. -/
theorem barePaths_ordered (line : List UInt16) : (barePaths line).Pairwise fun p q => p.1 + p.2.length ≤ q.1 := by
  refine List.Pairwise.filter _ (@Scan.collect_ordered UInt16 (Nat × List UInt16) barePathAt (fun p => (p.1, p.1 + p.2.length)) ?_ 0 0
    line).2
  intro i l v n hm
  unfold barePathAt at hm
  split at hm
  · cases hm
  · rename_i m hexec
    obtain ⟨before, path, hbefore, hpath, hconsumed, _, _⟩ := barePath_spec hexec
    obtain ⟨rfl, rfl⟩ := Prod.mk.inj hm |>.imp_left Option.some.inj
    simp only [hbefore, hpath, Option.getD_some, hconsumed, List.length_append]
    omega

/-- A path of a line: where it stands, what it is made of, and that no link and no tag starts before it and ends after. -/
theorem mem_barePaths {line path : List UInt16} {start : Nat} (h : (start, path) ∈ barePaths line) :
    path ≠ [] ∧ (∃ before after, line = before ++ path ++ after ∧ start = before.length ∧ ∀ c ∈ path, IsPathUnit c) ∧
      ∀ r ∈ findHardSkipRanges line, start < r.1 ∨ r.2 ≤ start := by
  obtain ⟨hmem, hkept⟩ := List.mem_filter.mp h
  simp only [Bool.and_eq_true, decide_eq_true_eq, Bool.not_eq_true'] at hkept
  obtain ⟨⟨hne, hinside⟩, _⟩ := hkept
  refine ⟨hne, mem_collect_barePathAt hmem, fun r hr => ?_⟩
  have hout := List.any_eq_false.mp hinside r hr
  simp only [isInside, Bool.and_eq_true, decide_eq_true_eq] at hout
  omega

/-- What is no part of a path stands before it or after it. -/
theorem apart_of_not_pathUnit {content before path after : List UInt16} {i : Nat} {c : UInt16}
    (hline : content = before ++ path ++ after)
    (hpath : ∀ d ∈ path, IsPathUnit d) (hi : content[i]? = some c) (hc : ¬ IsPathUnit c) :
    i < before.length ∨ before.length + path.length ≤ i := by
  by_contra hin
  have hlt : i - before.length < path.length := by omega
  have hget : path[i - before.length]? = some c := by
    rw [hline, List.getElem?_append_left (by rw [List.length_append]; omega), List.getElem?_append_right (by omega)] at hi
    exact hi
  exact hc (hpath c (List.mem_of_getElem? hget))

/-- A pattern that starts with a character matches a text that starts with it. -/
theorem head_of_seqs {d : Char} {rs : List (Regex UInt16)} {l : List UInt16} {n : Nat}
    (h : lengthAt (Regex.seqs (chr d :: rs)) l = some n) : l.head? = some (unit d) := by
  obtain ⟨m, hm, _⟩ := Option.map_eq_some_iff.mp h
  obtain ⟨m₁, h₁, _⟩ := Regex.mem_run_seq.mp (Regex.mem_run_of_exec hm)
  obtain ⟨c, rest, rfl, hc, _⟩ := Regex.mem_run_char.mp h₁
  rw [List.head?_cons, beq_iff_eq.mp hc]

/-! ## Fences -/

/-- The fence character of a code unit is one of its code unit. -/
theorem markerOf_eq_some {c : UInt16} {marker : FenceMarker} : markerOf c = some marker ↔ c = marker.unit := by
  have hne : unit '~' ≠ tick := by decide
  unfold markerOf
  cases marker with
  | backtick =>
    by_cases hc : c = tick
    · simp [hc, FenceMarker.unit]
    · by_cases ht : c = unit '~' <;> simp [hc, ht, FenceMarker.unit]
  | tilde =>
    by_cases hc : c = tick
    · simp [hc, FenceMarker.unit, hne.symm]
    · by_cases ht : c = unit '~'
      · simp [ht, hne, FenceMarker.unit]
      · simp [hc, ht, FenceMarker.unit]

/-- The two fence characters are not the same. -/
theorem unit_injective {marker marker' : FenceMarker} : marker.unit = marker'.unit ↔ marker = marker' := by
  cases marker <;> cases marker' <;> decide

/-- What is no fence character is none of the two. -/
theorem markerOf_eq_none {c : UInt16} (h : markerOf c = none) : ¬ (c = tick ∨ c = unit '~') := by
  rintro (rfl | rfl) <;> exact absurd h (by decide)

/-- `FENCE_MARKER_RE` finds the fences of Markdown. -/
theorem fenceRun_eq (line : List UInt16) :
    fenceRun line = (fenceMarker line).map fun r => (⟨r.1.unit, r.2.1⟩, r.2.2) := by
  unfold fenceRun fenceMarker
  cases line.dropWhile (· = unit ' ') with
  | nil => rfl
  | cons c rest =>
    dsimp only
    cases hmarker : markerOf c with
    | none => exact if_neg fun h => markerOf_eq_none hmarker h.1
    | some marker =>
      obtain rfl := markerOf_eq_some.mp hmarker
      have hfence : marker.unit = tick ∨ marker.unit = unit '~' := by cases marker <;> decide
      dsimp only
      split
      · rename_i h
        rw [if_pos h.2]
        rfl
      · rename_i h
        rw [if_neg fun h' => h ⟨hfence, h'⟩]
        rfl

/-- `parseOpeningFence` finds the opening fences of Markdown. -/
theorem openingFence_eq (line : List UInt16) : openingFence line = (parseOpeningFence line).map FenceState.fence := by
  unfold openingFence parseOpeningFence
  rw [fenceRun_eq]
  cases fenceMarker line with
  | none => rfl
  | some r =>
    obtain ⟨marker, length, info⟩ := r
    have hinfo : marker.unit = unit '\x60' ∧ unit '\x60' ∈ info ↔ marker = .backtick ∧ tick ∈ info :=
      and_congr_left' (@unit_injective marker .backtick)
    by_cases h : marker = .backtick ∧ tick ∈ info
    · dsimp only
      rw [if_pos h]
      simpa [Option.filter] using hinfo.mpr h
    · dsimp only
      rw [if_neg h]
      simpa [Option.filter, FenceState.fence] using fun hm ht => h (hinfo.mp ⟨hm, ht⟩)

/-- `isClosingFence` finds the closing fences of Markdown. -/
theorem closesFence_eq (line : List UInt16) (fence : FenceState) : closesFence fence.fence line = isClosingFence line fence := by
  unfold closesFence isClosingFence
  rw [fenceRun_eq]
  cases fenceMarker line with
  | none => rfl
  | some r =>
    obtain ⟨marker, length, rest⟩ := r
    have hmarker : decide (marker.unit = fence.marker.unit) = decide (marker = fence.marker) := decide_eq_decide.mpr unit_injective
    show (decide (marker.unit = fence.marker.unit) && decide (fence.length ≤ length) && rest.all Markdown.isBlank) = _
    rw [hmarker]
    rfl

/-! ## Skipped lines -/

/-- One match of a character or more. -/
theorem plus_matches {p : UInt16 → Bool} {w : List UInt16} (hne : w ≠ []) (hw : ∀ c ∈ w, p c = true) :
    (plus (.char p)).Matches w := by
  cases w with
  | nil => exact absurd rfl hne
  | cons c w =>
    exact Regex.seq_matches (Regex.char_matches (hw c List.mem_cons_self))
      (Regex.star_matches fun d hd => hw d (List.mem_cons_of_mem _ hd))

/-- One given character matches itself. -/
theorem chr_matches (c : Char) : (chr c).Matches [unit c] :=
  Regex.char_matches (beq_self_eq_true _)

/-- Indented code is skipped. -/
theorem isSkippedLine_indented {line : List UInt16} (h : IsIndentedCode line) : isSkippedLine line = true := by
  have hindent : (indentCode.exec line).isSome = true := by
    rcases h with ⟨rest, rfl⟩ | ⟨rest, rfl⟩
    · refine Regex.exec_isSome_iff.mpr ⟨⟨List.replicate 4 (unit ' '), [], rest⟩, List.mem_append_left _ ?_⟩
      exact @Regex.seqs_matches UInt16 _ [[unit ' '], [unit ' '], [unit ' '], [unit ' ']]
        (.cons (chr_matches ' ') (.cons (chr_matches ' ') (.cons (chr_matches ' ') (.cons (chr_matches ' ') .nil)))) rest
    · exact Regex.exec_isSome_iff.mpr ⟨⟨[unit '\t'], [], rest⟩, List.mem_append_right _ (chr_matches '\t' rest)⟩
  simp [isSkippedLine, hindent]

/-- The definition of a link is skipped. -/
theorem isSkippedLine_reference {line : List UInt16} (h : IsReferenceDefinition line) : isSkippedLine line = true := by
  obtain ⟨blanks, label, gap, first, rest, hblanks, hne, hlabel, hgap, hfirst, rfl⟩ := h
  have hmatches : referenceLinkDefinition.Matches
      [blanks, [unit '['], label, [unit ']'], [unit ':'], gap, [first]].flatten := by
    refine Regex.seqs_matches (.cons (Regex.star_matches hblanks) (.cons (chr_matches '[') (.cons (plus_matches hne ?_)
      (.cons (chr_matches ']') (.cons (chr_matches ':') (.cons (Regex.star_matches hgap) (.cons (plus_matches ?_ ?_) .nil)))))))
    · intro c hc
      simp [hlabel c hc]
    · exact List.cons_ne_nil _ _
    · intro c hc
      rw [List.mem_singleton.mp hc, hfirst]
      rfl
  have hline := hmatches.isSome rest
  simp only [List.flatten_cons, List.flatten_nil, List.append_nil, List.append_assoc, List.cons_append,
    List.nil_append] at hline
  simp [isSkippedLine, hline]

end DocLinkScanAux

end FirstTree
