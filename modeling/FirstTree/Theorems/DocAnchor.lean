import FirstTree.Lemmas.DocAnchor

/-!
# Where an anchor is located in the source it was built from

The quote of an anchor is always found again. Which of its occurrences is located rests on the contexts of the anchor, 48
characters of the raw source on each side: the first occurrence around which the normalized source goes on with both is taken. So
the range the anchor was built from is located when no earlier occurrence is in the same contexts, unless the contexts reach the
white space that is trimmed from the ends of the source, and are met nowhere in full.
-/

namespace FirstTree

open DocAnchor Utf16 Collapsing

/-- The collapsed context before a range. -/
def contextBefore (source : List UInt16) (range : DocAnchorRange) : List UInt16 :=
  collapseWhitespace (slice source (range.start - anchorContextChars) range.start)

/-- The collapsed context after a range. -/
def contextAfter (source : List UInt16) (range : DocAnchorRange) : List UInt16 :=
  collapseWhitespace (slice source range.stop (range.stop + anchorContextChars))

/-- The context before a range does not start in the white space that the source starts with, and the context after it does not end in
the white space that the source ends with. -/
structure ContextsKept (source : List UInt16) (range : DocAnchorRange) : Prop where
  front : ∀ c, (slice source (range.start - anchorContextChars) range.start).head? = some c → isSpace c = true →
    ∃ d ∈ source.take (range.start - anchorContextChars), isSpace d = false
  back : ∀ c, (slice source range.stop (range.stop + anchorContextChars)).getLast? = some c → isSpace c = true →
    ∃ d ∈ source.drop (range.stop + anchorContextChars), isSpace d = false

/-- No earlier occurrence of a text is one around which the normalized source goes on with both contexts of a range. -/
def FirstInContext (source needle : List UInt16) (range : DocAnchorRange) : Prop :=
  ∀ o ∈ findAllOccurrences (normalizeWithMap source).text needle,
    (toRawRange (normalizeWithMap source) o (o + needle.length)).start < range.start →
    ¬ Continues (normalizeWithMap source).text needle.length (contextBefore source range) (contextAfter source range) o

/-- What holds of an anchor in the source it was built from. -/
structure Relocates (source : List UInt16) (anchor : DocAnchor) (range : DocAnchorRange) : Prop where
  quoted : ∃ r, locateDocAnchor source anchor = some r ∧
    DocAnchor.normalize (slice source r.start r.stop) = DocAnchor.normalize anchor.exact_
  located : ContextsKept source range → FirstInContext source (DocAnchor.normalize anchor.exact_) range →
    locateDocAnchor source anchor = some range

namespace DocAnchorAux

/-! ## Picked ranges -/

/-- A picked range is that of an occurrence. -/
theorem pickRange_eq_some {norm : NormalizedText} {needle : List UInt16} {beforeContext afterContext : Option (List UInt16)}
    {range : DocAnchorRange} (h : pickRange norm needle beforeContext afterContext = some range) :
    ∃ o ∈ findAllOccurrences norm.text needle, range = toRawRange norm o (o + needle.length) := by
  unfold pickRange at h
  split at h
  · cases h
  · rename_i first rest hocc
    refine ⟨_, ?_, (Option.some.inj h).symm⟩
    rw [hocc]
    exact pickOccurrence_mem _ first rest _ _ _

/-- Where there is an occurrence, a range is picked. -/
theorem pickRange_isSome {norm : NormalizedText} {needle : List UInt16} {o : Nat} (h : o ∈ findAllOccurrences norm.text needle)
    (beforeContext afterContext : Option (List UInt16)) : ∃ range, pickRange norm needle beforeContext afterContext = some range := by
  unfold pickRange
  split
  · rename_i hocc
    rw [hocc] at h
    cases h
  · exact ⟨_, rfl⟩

/-- An occurrence lies in the normalized text. -/
theorem le_of_mem_findAllOccurrences {haystack needle : List UInt16} {o : Nat} (hne : needle ≠ [])
    (h : o ∈ findAllOccurrences haystack needle) : o ≤ haystack.length := by
  have hlen := (prefix_of_mem_findAllOccurrences h).length_le
  have hpos := List.length_pos_iff.mpr hne
  rw [List.length_drop] at hlen
  omega

/-- The range of the first occurrence around which the source goes on with both contexts is picked, when there is one. -/
theorem pickRange_first {norm : NormalizedText} {needle : List UInt16} {beforeContext afterContext : Option (List UInt16)} {o : Nat}
    (hne : needle ≠ []) (ho : o ∈ findAllOccurrences norm.text needle)
    (hbefore : (beforeContext.getD []).length ≤ 200) (hafter : (afterContext.getD []).length ≤ 200)
    (hcontinues : Continues norm.text needle.length (collapseWhitespace (beforeContext.getD []))
      (collapseWhitespace (afterContext.getD [])) o)
    (hearlier : ∀ x ∈ findAllOccurrences norm.text needle, x < o →
      ¬ Continues norm.text needle.length (collapseWhitespace (beforeContext.getD []))
        (collapseWhitespace (afterContext.getD [])) x) :
    pickRange norm needle beforeContext afterContext = some (toRawRange norm o (o + needle.length)) := by
  have hin : ∀ x ∈ findAllOccurrences norm.text needle, x ≤ norm.text.length := fun x hx => le_of_mem_findAllOccurrences hne hx
  have hsorted := findAllOccurrences_sorted norm.text needle
  unfold pickRange
  cases hocc : findAllOccurrences norm.text needle with
  | nil =>
    rw [hocc] at ho
    cases ho
  | cons first rest =>
    rw [hocc] at ho hin hsorted hearlier
    dsimp only
    rw [pickOccurrence_first hsorted hin ho hbefore hafter hcontinues hearlier]

/-! ## The part of the source an occurrence comes from -/

variable {source needle text before quoted after : List UInt16} {o : Nat}

/-- The quote reads back as the occurrence. -/
theorem normalize_quoted (h : ComesFrom source text needle o before quoted after) (hclean : Trimming.EdgesClean isSpace needle) :
    DocAnchor.normalize quoted = needle := by
  rw [DocAnchor.normalize, h.quoted_eq, Trimming.trim_eq_self hclean]

theorem slice_quoted (h : ComesFrom source text needle o before quoted after) :
    slice source before.length (before.length + quoted.length) = quoted := by
  rw [slice, h.raw_eq, ← List.append_assoc, ← List.length_append, List.take_left, List.drop_left]

/-- The context before is at the end of what comes before. -/
theorem contextBefore_suffix (h : ComesFrom source text needle o before quoted after)
    (hkept : ContextsKept source ⟨before.length, before.length + quoted.length⟩) :
    contextBefore source ⟨before.length, before.length + quoted.length⟩ <:+ text.take o := by
  have hwindow : slice source (before.length - anchorContextChars) before.length =
      before.drop (before.length - anchorContextChars) := by
    rw [slice, h.raw_eq, List.take_left]
  have htake : source.take (before.length - anchorContextChars) = before.take (before.length - anchorContextChars) := by
    rw [h.raw_eq, List.take_append_of_le_length (Nat.sub_le _ _)]
  have hfront := hkept.front
  rw [hwindow, htake] at hfront
  have hedge : (∀ c ∈ (before.drop (before.length - anchorContextChars)).head?, isSpace c = false) ∨
      ∃ d ∈ before.take (before.length - anchorContextChars), isSpace d = false := by
    by_cases hclean : ∀ c ∈ (before.drop (before.length - anchorContextChars)).head?, isSpace c = false
    · exact .inl hclean
    · obtain ⟨c, hc⟩ := not_forall.mp hclean
      obtain ⟨hmem, hspace⟩ := Classical.not_imp.mp hc
      exact .inr (hfront c hmem (by simpa using hspace))
  have hsuffix : collapse isSpace (unit ' ') false (before.drop (before.length - anchorContextChars)) <:+
      collapse isSpace (unit ' ') true
        (before.take (before.length - anchorContextChars) ++ before.drop (before.length - anchorContextChars)) :=
    collapse_suffix hedge
  rw [List.take_append_drop] at hsuffix
  rw [contextBefore, hwindow, ← h.before_eq]
  exact hsuffix

/-- The context after is at the front of what comes after. -/
theorem contextAfter_prefix (h : ComesFrom source text needle o before quoted after)
    (hkept : ContextsKept source ⟨before.length, before.length + quoted.length⟩) :
    contextAfter source ⟨before.length, before.length + quoted.length⟩ <+: text.drop (o + needle.length) := by
  have hdrop : source.drop (before.length + quoted.length) = after := by
    rw [h.raw_eq, ← List.append_assoc, ← List.length_append, List.drop_left]
  have hwindow : slice source (before.length + quoted.length) (before.length + quoted.length + anchorContextChars) =
      after.take anchorContextChars := by
    rw [slice, List.drop_take, Nat.add_sub_cancel_left, hdrop]
  have hback := hkept.back
  rw [hwindow, ← List.drop_drop, hdrop] at hback
  obtain ⟨space, htext, hspace⟩ := h.after_eq
  rw [← List.take_append_drop anchorContextChars after, collapseWhitespace, collapse_append] at htext
  rw [contextAfter, hwindow]
  generalize after.take anchorContextChars = w at htext hback ⊢
  generalize after.drop anchorContextChars = later at htext hback
  rcases hspace with rfl | rfl
  · rw [List.append_nil] at htext
    exact htext ▸ List.prefix_append _ _
  · -- the space at the end of the source belongs to what is left, not to the context
    rcases List.eq_nil_or_concat (collapse isSpace (unit ' ') (endsInRun isSpace false w) later) with hlater | ⟨front, e, hlater⟩
    · exfalso
      rw [hlater, List.append_nil] at htext
      rcases List.eq_nil_or_concat w with rfl | ⟨front, c, rfl⟩
      · exact List.cons_ne_nil _ _ (List.append_eq_nil_iff.mp htext).2
      · rw [List.concat_eq_append] at htext hback hlater
        cases hc : isSpace c with
        | true =>
          obtain ⟨d, hd, hpd⟩ := hback c List.getLast?_concat hc
          have hmem : d ∈ collapse isSpace (unit ' ') (endsInRun isSpace false (front ++ [c])) later := mem_collapse hd hpd _
          rw [hlater] at hmem
          exact List.not_mem_nil hmem
        | false =>
          rw [collapse_append, collapse_cons_neg hc] at htext
          have hlast : [unit ' '] = [c] := List.append_inj_right' htext rfl
          rw [← List.singleton_inj.mp hlast] at hc
          exact absurd hc (by decide)
    · rw [hlater, List.concat_eq_append, ← List.append_assoc] at htext
      rw [List.append_inj_left' htext rfl]
      exact List.prefix_append _ _

/-- An earlier occurrence comes from an earlier part. -/
theorem before_length_lt {before' quoted' after' : List UInt16} {o' : Nat}
    (h : ComesFrom source text needle o before quoted after) (h' : ComesFrom source text needle o' before' quoted' after')
    (hlt : o < o') (hle : o' ≤ text.length) : before.length < before'.length := by
  by_contra hge
  have hbefore : before <+: source := h.raw_eq ▸ List.prefix_append _ _
  have hbefore' : before' <+: source := h'.raw_eq ▸ List.prefix_append _ _
  obtain ⟨rest, hrest⟩ := List.prefix_of_prefix_length_le hbefore' hbefore (Nat.le_of_not_lt hge)
  have htake := h.before_eq
  rw [← hrest, collapsed, collapse_append, ← collapsed, h'.before_eq] at htake
  have hlen := congrArg List.length htake
  rw [List.length_append, List.length_take, List.length_take] at hlen
  omega

/-! ## The stored contexts -/

/-- The context before is stored whole. -/
theorem storedPrefix {l : List UInt16} (h : l.length ≤ docAnchorContextMax) :
    (((nonEmpty l).map fun l => l.drop (l.length - docAnchorContextMax)).getD []) = l := by
  unfold nonEmpty
  split
  · rw [Option.map_some, Option.getD_some, Nat.sub_eq_zero_of_le h, List.drop_zero]
  · rename_i hnone
    exact (List.length_eq_zero_iff.mp (Nat.eq_zero_of_not_pos hnone)).symm

/-- The context after is stored whole. -/
theorem storedSuffix {l : List UInt16} (h : l.length ≤ docAnchorContextMax) :
    (((nonEmpty l).map fun l => l.take docAnchorContextMax).getD []) = l := by
  unfold nonEmpty
  split
  · rw [Option.map_some, Option.getD_some, List.take_of_length_le h]
  · rename_i hnone
    exact (List.length_eq_zero_iff.mp (Nat.eq_zero_of_not_pos hnone)).symm

/-- A slice is no longer than its bounds are apart. -/
theorem length_slice_le {l : List UInt16} {start stop n : Nat} (h : stop ≤ start + n) : (slice l start stop).length ≤ n := by
  rw [slice, List.length_drop, List.length_take]
  omega

end DocAnchorAux

open DocAnchorAux

/-- An anchor that was built is located again in its source at a range with the same normalized text, and at the range it was built
from when its contexts are kept and no earlier occurrence of the text is in the same contexts. -/
theorem built_anchor_relocates {input : BuildDocAnchorInput} {range : DocAnchorRange} {anchor : DocAnchor}
    (hrange : builtRange input = some range) (hbuilt : buildDocAnchor input = some anchor) :
    Relocates input.source anchor range := by
  have hclean : Trimming.EdgesClean isSpace (DocAnchor.normalize input.selectedText) := Trimming.edgesClean_trim _ _
  unfold buildDocAnchor at hbuilt
  rw [hrange] at hbuilt
  unfold builtRange at hrange
  dsimp only at hrange hbuilt
  split at hrange
  · cases hrange
  · rename_i hselected
    have hne : DocAnchor.normalize input.selectedText ≠ [] := fun hnil => hselected (.inl (by rw [hnil]; rfl))
    obtain ⟨b, hnorm⟩ := normalizes_normalizeWithMap input.source
    obtain ⟨o, ho, hrange'⟩ := pickRange_eq_some hrange
    obtain ⟨before, quoted, after, hfrom, hraw⟩ := comesFrom_toRawRange hnorm hne hclean (prefix_of_mem_findAllOccurrences ho)
    rw [hraw] at hrange'
    subst hrange'
    split at hbuilt
    · cases hbuilt
    · obtain rfl := Option.some.inj hbuilt
      have hexact := (congrArg DocAnchor.normalize (slice_quoted hfrom)).trans (normalize_quoted hfrom hclean)
      have hlocate : ∀ prefixText suffixText, locateDocAnchor input.source
          ⟨slice input.source before.length (before.length + quoted.length), prefixText, suffixText⟩ =
            pickRange (normalizeWithMap input.source) (DocAnchor.normalize input.selectedText) prefixText suffixText := by
        intro prefixText suffixText
        unfold locateDocAnchor locateInNormalized
        dsimp only
        rw [hexact, if_neg fun hlen => hne (List.length_eq_zero_iff.mp hlen)]
      refine ⟨?_, fun hkept hfirst => ?_⟩
      · obtain ⟨r, hr⟩ := pickRange_isSome ho _ _
        refine ⟨r, (hlocate _ _).trans hr, ?_⟩
        obtain ⟨o', ho', rfl⟩ := pickRange_eq_some hr
        obtain ⟨before', quoted', after', hfrom', hraw'⟩ :=
          comesFrom_toRawRange hnorm hne hclean (prefix_of_mem_findAllOccurrences ho')
        rw [hraw', slice_quoted hfrom', normalize_quoted hfrom' hclean, hexact]
      · have hbefore : (slice input.source (before.length - anchorContextChars) before.length).length ≤ anchorContextChars :=
          length_slice_le (by omega)
        have hafter : (slice input.source (before.length + quoted.length)
            (before.length + quoted.length + anchorContextChars)).length ≤ anchorContextChars := length_slice_le (Nat.le_refl _)
        have hpre := storedPrefix (Nat.le_trans hbefore (by decide))
        have hsuf := storedSuffix (Nat.le_trans hafter (by decide))
        refine (hlocate _ _).trans (.trans (pickRange_first hne ho ?_ ?_ ?_ ?_) (congrArg some hraw))
        · rw [hpre]
          exact Nat.le_trans hbefore (by decide)
        · rw [hsuf]
          exact Nat.le_trans hafter (by decide)
        · rw [hpre, hsuf]
          exact ⟨contextBefore_suffix hfrom hkept, contextAfter_prefix hfrom hkept⟩
        · intro x hx hlt
          rw [hpre, hsuf]
          obtain ⟨before', quoted', after', hfrom', hraw'⟩ :=
            comesFrom_toRawRange hnorm hne hclean (prefix_of_mem_findAllOccurrences hx)
          have hearlier := hfirst x
          rw [hexact, hraw'] at hearlier
          exact hearlier hx (before_length_lt hfrom' hfrom hlt (le_of_mem_findAllOccurrences hne ho))

namespace DocAnchorExample

/-- The second of two letters is selected. -/
def second : BuildDocAnchorInput := ⟨units "a b a", units "a", some (units "b "), none⟩

/-- The second letter is located, since the first one is not in its context. -/
theorem built_anchor_relocates_second : ∃ anchor, buildDocAnchor second = some anchor ∧
    locateDocAnchor second.source anchor = some ⟨4, 5⟩ := by
  have hrange : builtRange second = some ⟨4, 5⟩ := by decide
  have hbuilt : buildDocAnchor second = some ⟨units "a", some (units "a b "), none⟩ := by decide
  refine ⟨_, hbuilt, (built_anchor_relocates hrange hbuilt).located ⟨?_, ?_⟩ ?_⟩
  · intro c hc hspace
    obtain rfl := Option.some.inj hc
    exact absurd hspace (by decide)
  · intro c hc
    cases hc
  · unfold FirstInContext Continues
    decide

/-- What was to hold of every anchor: its quote is located, and its range is located when no other occurrence of the quote has the
same contexts. -/
def EveryAnchorRelocates : Prop :=
  ∀ input range anchor, builtRange input = some range → buildDocAnchor input = some anchor →
    (∃ r, locateDocAnchor input.source anchor = some r ∧
      DocAnchor.normalize (slice input.source r.start r.stop) = DocAnchor.normalize anchor.exact_) ∧
    ((∀ o ∈ findAllOccurrences (normalizeWithMap input.source).text (DocAnchor.normalize anchor.exact_),
      let other := toRawRange (normalizeWithMap input.source) o (o + (DocAnchor.normalize anchor.exact_).length)
      other ≠ range → ¬ (contextBefore input.source other = contextBefore input.source range ∧
        contextAfter input.source other = contextAfter input.source range)) →
      locateDocAnchor input.source anchor = some range)

/-- One letter many times over: 26 of them with a space each, and a last one, which is selected. -/
def last : BuildDocAnchorInput :=
  ⟨(List.replicate 26 (units "X ")).flatten ++ units "X", units "X", some (List.replicate 26 (units "X ")).flatten, none⟩

/-- The anchor of the last letter: no text is after it. -/
def lastAnchor : DocAnchor := ⟨units "X", some (List.replicate 24 (units "X ")).flatten, none⟩

/-- The last letter has nothing after it, and the first one with the same 48 characters before it is located in its place. -/
theorem every_anchor_relocates_false : ¬ EveryAnchorRelocates := by
  intro h
  have hrange : builtRange last = some ⟨52, 53⟩ := by decide
  have hbuilt : buildDocAnchor last = some lastAnchor := by decide
  have hlocated : locateDocAnchor last.source lastAnchor = some ⟨48, 49⟩ := by decide
  have hcontexts := (h last ⟨52, 53⟩ lastAnchor hrange hbuilt).2 (by decide)
  rw [hlocated] at hcontexts
  cases hcontexts

end DocAnchorExample

end FirstTree
