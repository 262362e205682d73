import FirstTree.Shared.DocAnchor

/-!
# The normalized view of a source

What `normalizeWithMap` makes of a text, and how a place in the normalized text is one in the raw text: what stands before it is the
collapsed text before its offset.
-/

namespace FirstTree

namespace DocAnchor

open Utf16 Collapsing

/-- A text collapsed without a space in front. -/
def collapsed (raw : List UInt16) : List UInt16 := collapse isSpace (unit ' ') true raw

/-- The state of `normalizeWithMap` after a part of a text: the text so far and a pending space are the part collapsed, and a
character that is no space comes from its offset, with what stands before it collapsed in front. -/
structure Normalizes (done text : List UInt16) (map : List Nat) (pendingSpace : Bool) : Prop where
  pending : pendingSpace = (endsInRun isSpace true done && decide (0 < text.length))
  started : endsInRun isSpace true done = false → 0 < text.length
  text_eq : text ++ (if pendingSpace then [unit ' '] else []) = collapsed done
  length : map.length = text.length
  bounds : ∀ i ∈ map, i < done.length
  sorted : map.Pairwise (· ≤ ·)
  placed : ∀ (k : Nat) c, text[k]? = some c → isSpace c = false →
    ∃ i, map[k]? = some i ∧ done[i]? = some c ∧ text.take k = collapsed (done.take i)

namespace Normalizes

variable {done text : List UInt16} {map : List Nat} {pendingSpace : Bool}

/-- A space is left pending, or drops out in front. -/
theorem step_space (h : Normalizes done text map pendingSpace) {c : UInt16} (hc : isSpace c = true) :
    Normalizes (done ++ [c]) text map (decide (0 < text.length)) := by
  have hend : endsInRun isSpace true (done ++ [c]) = true := by rw [endsInRun_concat, hc]
  refine ⟨by rw [hend, Bool.true_and], ?_, ?_, h.length, ?_, h.sorted, ?_⟩
  · intro hfalse
    rw [hend] at hfalse
    cases hfalse
  · rw [collapsed, collapse_append, ← collapsed, ← h.text_eq, h.pending]
    cases hrun : endsInRun isSpace true done with
    | true => simp [collapse, hc]
    | false =>
      have hpos := h.started hrun
      simp [collapse, hc, hpos]
  · intro i hi
    rw [List.length_append]
    exact Nat.lt_add_right _ (h.bounds i hi)
  · intro k d hk hd
    obtain ⟨i, hi, hget, htake⟩ := h.placed k d hk hd
    have hlt : i < done.length := h.bounds i (List.mem_of_getElem? hi)
    refine ⟨i, hi, ?_, ?_⟩
    · rw [List.getElem?_append_left hlt]
      exact hget
    · rw [List.take_append_of_le_length (Nat.le_of_lt hlt)]
      exact htake

/-- Another character is put after the pending space. -/
theorem step_char (h : Normalizes done text map pendingSpace) {c : UInt16} (hc : isSpace c = false) :
    Normalizes (done ++ [c]) (text ++ (if pendingSpace then [unit ' '] else []) ++ [c])
      (map ++ (if pendingSpace then [done.length] else []) ++ [done.length]) false := by
  have hend : endsInRun isSpace true (done ++ [c]) = false := by rw [endsInRun_concat, hc]
  have hlength : (map ++ if pendingSpace then [done.length] else []).length =
      (text ++ if pendingSpace then [unit ' '] else []).length := by
    cases pendingSpace <;> simp [h.length]
  refine ⟨by rw [hend, Bool.false_and], fun _ => ?_, ?_, ?_, ?_, ?_, ?_⟩
  · rw [List.length_append]
    exact Nat.lt_add_left _ Nat.zero_lt_one
  · rw [h.text_eq, collapsed, collapsed, collapse_append, collapse_cons_neg hc]
    simp [collapse]
  · simp only [List.length_append, List.length_singleton] at hlength ⊢
    omega
  · intro i hi
    rw [List.length_append, List.length_singleton]
    rcases List.mem_append.mp hi with hi | hi
    · rcases List.mem_append.mp hi with hi | hi
      · exact Nat.lt_succ_of_lt (h.bounds i hi)
      · cases pendingSpace <;> simp_all
    · rw [List.mem_singleton.mp hi]
      exact Nat.lt_succ_self _
  · have hbelow : ∀ i ∈ map ++ (if pendingSpace then [done.length] else []), i ≤ done.length := by
      intro i hi
      rcases List.mem_append.mp hi with hi | hi
      · exact Nat.le_of_lt (h.bounds i hi)
      · cases pendingSpace <;> simp_all
    refine List.pairwise_append.mpr ⟨List.pairwise_append.mpr ⟨h.sorted, ?_, ?_⟩, List.pairwise_singleton _ _, ?_⟩
    · cases pendingSpace <;> simp
    · intro i hi j hj
      cases pendingSpace with
      | true => exact List.mem_singleton.mp hj ▸ Nat.le_of_lt (h.bounds i hi)
      | false => exact absurd hj List.not_mem_nil
    · intro i hi j hj
      rw [List.mem_singleton.mp hj]
      exact hbelow i hi
  · intro k d hk hd
    by_cases hold : k < text.length
    · rw [List.append_assoc, List.getElem?_append_left hold] at hk
      obtain ⟨i, hi, hget, htake⟩ := h.placed k d hk hd
      have hlt : i < done.length := h.bounds i (List.mem_of_getElem? hi)
      refine ⟨i, ?_, ?_, ?_⟩
      · rw [List.append_assoc, List.getElem?_append_left (h.length ▸ hold)]
        exact hi
      · rw [List.getElem?_append_left hlt]
        exact hget
      · rw [List.append_assoc, List.take_append_of_le_length (Nat.le_of_lt hold), List.take_append_of_le_length (Nat.le_of_lt hlt)]
        exact htake
    · -- a pending space is no such character, so the place is that of the new one
      have hlast : k = (text ++ if pendingSpace then [unit ' '] else []).length := by
        by_contra hne
        have hspace : isSpace (unit ' ') = true := by decide
        have hbound : k < (text ++ (if pendingSpace then [unit ' '] else []) ++ [c]).length := (List.getElem?_eq_some_iff.mp hk).1
        rw [List.length_append, List.length_singleton] at hbound
        rw [List.getElem?_append_left (by omega), List.getElem?_append_right (Nat.le_of_not_lt hold)] at hk
        have hmem := List.mem_of_getElem? hk
        cases pendingSpace with
        | true =>
          rw [List.mem_singleton.mp hmem, hspace] at hd
          cases hd
        | false => exact List.not_mem_nil hmem
      subst hlast
      refine ⟨done.length, ?_, ?_, ?_⟩
      · rw [← hlength, List.getElem?_concat_length]
      · rw [List.getElem?_concat_length] at hk ⊢
        exact hk
      · rw [List.take_left, h.text_eq, List.take_left]

end Normalizes

/-- `normalizeWithMap` collapses the whole text. -/
theorem normalizes_loop {done text : List UInt16} {map : List Nat} {pendingSpace : Bool} (h : Normalizes done text map pendingSpace)
    (raw : List UInt16) :
    ∃ b, Normalizes (done ++ raw) (normalizeLoop done.length text map pendingSpace raw).text
      (normalizeLoop done.length text map pendingSpace raw).map b := by
  induction raw generalizing done text map pendingSpace with
  | nil =>
    rw [List.append_nil]
    exact ⟨pendingSpace, h⟩
  | cons c raw ih =>
    have hlength : done.length + 1 = (done ++ [c]).length := by simp
    rw [List.append_cons]
    unfold normalizeLoop
    rw [hlength]
    by_cases hc : isSpace c = true
    · rw [if_pos hc]
      exact ih (h.step_space hc)
    · rw [if_neg hc]
      have hstep := h.step_char (Bool.eq_false_iff.mpr hc)
      cases pendingSpace with
      | true => exact ih hstep
      | false =>
        rw [if_neg Bool.false_ne_true]
        simpa using ih hstep

theorem normalizes_normalizeWithMap (raw : List UInt16) :
    ∃ b, Normalizes raw (normalizeWithMap raw).text (normalizeWithMap raw).map b := by
  have hinit : Normalizes [] [] [] false :=
    ⟨rfl, fun h => (nomatch h), rfl, rfl, fun _ hi => (nomatch hi), .nil, fun k c hk => (nomatch hk)⟩
  exact normalizes_loop hinit raw

/-- A part of a raw text that an occurrence in the normalized text comes from: it collapses to the occurrence, the part before it to
what is before, and the part after it to what is after, up to a space at the end. -/
structure ComesFrom (raw text needle : List UInt16) (o : Nat) (before quoted after : List UInt16) : Prop where
  raw_eq : raw = before ++ (quoted ++ after)
  before_eq : collapsed before = text.take o
  quoted_eq : collapseWhitespace quoted = needle
  after_eq : ∃ space, text.drop (o + needle.length) ++ space = collapseWhitespace after ∧
    (space = [] ∨ space = [unit ' '])

/-- An occurrence of a text that neither starts nor ends with a space comes from the raw range it is translated to. -/
theorem comesFrom_toRawRange {raw needle : List UInt16} {norm : NormalizedText} {pendingSpace : Bool} {o : Nat}
    (h : Normalizes raw norm.text norm.map pendingSpace) (hne : needle ≠ []) (hclean : Trimming.EdgesClean isSpace needle)
    (hocc : needle <+: norm.text.drop o) :
    ∃ before quoted after, ComesFrom raw norm.text needle o before quoted after ∧
      toRawRange norm o (o + needle.length) = ⟨before.length, before.length + quoted.length⟩ := by
  obtain ⟨tail, htail⟩ := hocc
  have hpos := List.length_pos_iff.mpr hne
  have hat : ∀ k < needle.length, norm.text[o + k]? = needle[k]? := by
    intro k hk
    rw [← List.getElem?_drop, ← htail, List.getElem?_append_left hk]
  have hfirst : norm.text[o]? = needle.head? := by
    rw [List.head?_eq_getElem?]
    exact hat 0 hpos
  have hlast : norm.text[o + (needle.length - 1)]? = needle.getLast? := by
    rw [List.getLast?_eq_getElem?]
    exact hat _ (Nat.sub_lt hpos Nat.one_pos)
  obtain ⟨c, hc⟩ : ∃ c, needle.head? = some c := ⟨_, List.head?_eq_some_head hne⟩
  obtain ⟨d, hd⟩ : ∃ d, needle.getLast? = some d := ⟨_, List.getLast?_eq_some_getLast hne⟩
  have hcspace := hclean.1 c hc
  have hdspace := hclean.2 d hd
  obtain ⟨i, hi, hgeti, htakei⟩ := h.placed o c (hfirst.trans hc) hcspace
  obtain ⟨j, hj, hgetj, htakej⟩ := h.placed _ d (hlast.trans hd) hdspace
  have hij : i ≤ j := by
    obtain ⟨_, hio⟩ := List.getElem?_eq_some_iff.mp hi
    obtain ⟨_, hjo⟩ := List.getElem?_eq_some_iff.mp hj
    rcases Nat.eq_or_lt_of_le (Nat.le_add_right o (needle.length - 1)) with heq | hlt
    · rw [← hio, ← hjo]
      simp [← heq]
    · rw [← hio, ← hjo]
      exact List.pairwise_iff_getElem.mp h.sorted _ _ _ _ hlt
  have hjlen : j < raw.length := h.bounds j (List.mem_of_getElem? hj)
  have htaken : raw.take (j + 1) = raw.take i ++ (raw.take (j + 1)).drop i := by
    have hsplit := List.take_append_drop i (raw.take (j + 1))
    rw [List.take_take, Nat.min_eq_left (Nat.le_succ_of_le hij)] at hsplit
    exact hsplit.symm
  have hraw : raw = raw.take i ++ ((raw.take (j + 1)).drop i ++ raw.drop (j + 1)) := by
    rw [← List.append_assoc, ← htaken, List.take_append_drop]
  have hupto : raw.take (j + 1) = raw.take j ++ [d] := by
    rw [List.take_add_one, hgetj]
    rfl
  have hneedle : norm.text.take (o + needle.length) = norm.text.take o ++ needle := by
    rw [List.take_add, ← htail, List.take_left]
  -- the text up to the end of the occurrence is the raw text up to its last character, collapsed
  have hcollapsed : collapsed (raw.take (j + 1)) = norm.text.take (o + needle.length) := by
    have hlen : o + needle.length = o + (needle.length - 1) + 1 := by omega
    rw [hupto, collapsed, collapse_append, collapse_cons_neg hdspace, ← collapsed, ← htakej, hlen, List.take_add_one, hlast, hd]
    rfl
  refine ⟨raw.take i, (raw.take (j + 1)).drop i, raw.drop (j + 1), ⟨hraw, htakei.symm, ?_, ?_⟩, ?_⟩
  · have hhead : ∀ c' ∈ ((raw.take (j + 1)).drop i).head?, isSpace c' = false := by
      intro c' hc'
      rw [List.head?_drop, List.getElem?_take_of_lt (Nat.lt_succ_of_le hij), hgeti] at hc'
      exact Option.some.inj hc' ▸ hcspace
    rw [htaken, collapsed, collapse_append, collapse_of_head hhead, ← collapsed, ← htakei, hneedle] at hcollapsed
    exact List.append_cancel_left hcollapsed
  · refine ⟨if pendingSpace then [unit ' '] else [], ?_, ?_⟩
    · have hwhole := h.text_eq
      rw [← List.take_append_drop (o + needle.length) norm.text, ← List.take_append_drop (j + 1) raw, collapsed, collapse_append,
        ← collapsed, hcollapsed, hupto, endsInRun_concat, hdspace, List.append_assoc] at hwhole
      exact List.append_cancel_left hwhole
    · cases pendingSpace with
      | false => exact .inl rfl
      | true => exact .inr rfl
  · have hlength : i + ((raw.take (j + 1)).drop i).length = j + 1 := by
      rw [List.length_drop, List.length_take]
      omega
    have hi' : norm.map.getD o 0 = i := by rw [List.getD_eq_getElem?_getD, hi]; rfl
    have hj' : norm.map.getD (o + needle.length - 1) 0 = j := by
      rw [List.getD_eq_getElem?_getD, Nat.add_sub_assoc hpos, hj]
      rfl
    rw [toRawRange, hi', hj', List.length_take, Nat.min_eq_left (by omega), hlength]

/-! ## Occurrences -/

/-- The places where a text occurs, in order. -/
theorem occurrencesFrom_spec (needle : List UInt16) (i : Nat) (l : List UInt16) :
    (∀ o ∈ occurrencesFrom needle i l, ∃ k, o = i + k ∧ needle <+: l.drop k) ∧ (occurrencesFrom needle i l).Pairwise (· < ·) := by
  induction l generalizing i with
  | nil => exact ⟨fun o ho => absurd ho List.not_mem_nil, .nil⟩
  | cons c l ih =>
    obtain ⟨hfound, hsorted⟩ := ih (i + 1)
    have hlater : ∀ o ∈ occurrencesFrom needle (i + 1) l, ∃ k, o = i + (k + 1) ∧ needle <+: (c :: l).drop (k + 1) := by
      intro o ho
      obtain ⟨k, rfl, hk⟩ := hfound o ho
      exact ⟨k, by omega, hk⟩
    unfold occurrencesFrom
    split
    · rename_i hprefix
      refine ⟨fun o ho => ?_, List.pairwise_cons.mpr ⟨fun o ho => ?_, hsorted⟩⟩
      · rcases List.mem_cons.mp ho with rfl | ho
        · exact ⟨0, rfl, List.isPrefixOf_iff_prefix.mp hprefix⟩
        · obtain ⟨k, hk, hdrop⟩ := hlater o ho
          exact ⟨k + 1, hk, hdrop⟩
      · obtain ⟨k, rfl, _⟩ := hlater o ho
        omega
    · refine ⟨fun o ho => ?_, hsorted⟩
      obtain ⟨k, hk, hdrop⟩ := hlater o ho
      exact ⟨k + 1, hk, hdrop⟩

theorem prefix_of_mem_findAllOccurrences {haystack needle : List UInt16} {o : Nat} (h : o ∈ findAllOccurrences haystack needle) :
    needle <+: haystack.drop o := by
  unfold findAllOccurrences at h
  split at h
  · cases h
  · obtain ⟨k, rfl, hk⟩ := (occurrencesFrom_spec needle 0 haystack).1 o h
    rwa [Nat.zero_add]

theorem findAllOccurrences_sorted (haystack needle : List UInt16) : (findAllOccurrences haystack needle).Pairwise (· < ·) := by
  unfold findAllOccurrences
  split
  · exact .nil
  · exact (occurrencesFrom_spec needle 0 haystack).2

/-! ## Scores -/

/-- An overlap is no longer than the context, and as long where the context goes on in the text. -/
theorem prefixOverlap_spec (context neighborhood : List UInt16) :
    prefixOverlap context neighborhood ≤ context.length ∧
      (prefixOverlap context neighborhood = context.length ↔ context <+: neighborhood) := by
  induction context generalizing neighborhood with
  | nil => cases neighborhood <;> simp [prefixOverlap]
  | cons c context ih =>
    cases neighborhood with
    | nil => simp [prefixOverlap]
    | cons d neighborhood =>
      obtain ⟨hle, hiff⟩ := ih neighborhood
      by_cases hcd : c = d
      · simp [prefixOverlap, hcd, hle, hiff]
      · simp [prefixOverlap, hcd]

theorem suffixOverlap_spec (context neighborhood : List UInt16) :
    suffixOverlap context neighborhood ≤ context.length ∧
      (suffixOverlap context neighborhood = context.length ↔ context <:+ neighborhood) := by
  have h := prefixOverlap_spec context.reverse neighborhood.reverse
  rw [List.length_reverse, List.reverse_prefix] at h
  exact h

/-- The source around a place goes on with both contexts. -/
def Continues (normSource : List UInt16) (needleLength : Nat) (normBefore normAfter : List UInt16) (start : Nat) : Prop :=
  normBefore <:+ normSource.take start ∧ normAfter <+: normSource.drop (start + needleLength)

/-- Contexts within the neighborhood reach the full score where the source goes on with both. -/
theorem score_spec {normSource normBefore normAfter : List UInt16} (hbefore : normBefore.length ≤ 200)
    (hafter : normAfter.length ≤ 200) (needleLength : Nat) {start : Nat} (hstart : start ≤ normSource.length) :
    score normSource needleLength normBefore normAfter start ≤ normBefore.length + normAfter.length ∧
      (score normSource needleLength normBefore normAfter start = normBefore.length + normAfter.length ↔
        Continues normSource needleLength normBefore normAfter start) := by
  obtain ⟨hb, hbiff⟩ := suffixOverlap_spec normBefore (slice normSource (start - 200) start)
  obtain ⟨ha, haiff⟩ := prefixOverlap_spec normAfter (slice normSource (start + needleLength) (start + needleLength + 200))
  have hbeforeIff : normBefore <:+ slice normSource (start - 200) start ↔ normBefore <:+ normSource.take start := by
    refine ⟨fun h => h.trans (List.drop_suffix _ _), fun h => ?_⟩
    have hlen := h.length_le
    refine List.suffix_of_suffix_length_le h (List.drop_suffix _ _) ?_
    rw [List.length_take] at hlen
    rw [slice, List.length_drop, List.length_take]
    omega
  have hafterIff : normAfter <+: slice normSource (start + needleLength) (start + needleLength + 200) ↔
      normAfter <+: normSource.drop (start + needleLength) := by
    rw [slice, List.drop_take, Nat.add_sub_cancel_left, List.prefix_take_iff]
    exact and_iff_left hafter
  unfold score Continues
  dsimp only
  rw [← hbeforeIff, ← hafterIff, ← hbiff, ← haiff]
  omega

/-- The loop picks the occurrence it starts with, or another one. -/
theorem pickLoop_mem {score : Nat → Nat} {best : Nat} {bestScore : Int} {occurrences l : List Nat} (hbest : best ∈ occurrences)
    (hl : ∀ x ∈ l, x ∈ occurrences) : pickLoop score best bestScore l ∈ occurrences := by
  induction l generalizing best bestScore with
  | nil => exact hbest
  | cons x l ih =>
    have hrest : ∀ y ∈ l, y ∈ occurrences := fun y hy => hl y (List.mem_cons_of_mem _ hy)
    unfold pickLoop
    split
    · exact ih (hl x List.mem_cons_self) hrest
    · exact ih hbest hrest

theorem pickOccurrence_mem (normSource : List UInt16) (first : Nat) (rest : List Nat) (needleLength : Nat)
    (beforeContext afterContext : Option (List UInt16)) :
    pickOccurrence normSource first rest needleLength beforeContext afterContext ∈ first :: rest := by
  unfold pickOccurrence
  split
  · exact List.mem_cons_self
  · exact pickLoop_mem List.mem_cons_self fun x hx => hx

/-- The loop keeps a best occurrence that reaches the bound. -/
theorem pickLoop_kept {score : Nat → Nat} {bound best : Nat} {l : List Nat} (h : ∀ x ∈ l, score x ≤ bound) :
    pickLoop score best bound l = best := by
  induction l with
  | nil => rfl
  | cons x l ih =>
    have hx := h x List.mem_cons_self
    unfold pickLoop
    rw [if_neg (by omega)]
    exact ih fun y hy => h y (List.mem_cons_of_mem _ hy)

/-- The loop picks the first occurrence that reaches the bound. -/
theorem pickLoop_first {score : Nat → Nat} {bound best o : Nat} {bestScore : Int} {before after : List Nat}
    (h : ∀ x ∈ before ++ o :: after, score x ≤ bound) (hbest : bestScore < bound) (ho : score o = bound)
    (hbefore : ∀ x ∈ before, score x ≠ bound) : pickLoop score best bestScore (before ++ o :: after) = o := by
  induction before generalizing best bestScore with
  | nil =>
    rw [List.nil_append, pickLoop, if_pos (by rw [ho]; exact hbest), ho]
    exact pickLoop_kept fun x hx => h x (List.mem_cons_of_mem _ hx)
  | cons x before ih =>
    have hx := h x List.mem_cons_self
    have hne := hbefore x List.mem_cons_self
    have hrest : ∀ y ∈ before ++ o :: after, score y ≤ bound := fun y hy => h y (List.mem_cons_of_mem _ hy)
    have hother : ∀ y ∈ before, score y ≠ bound := fun y hy => hbefore y (List.mem_cons_of_mem _ hy)
    rw [List.cons_append, pickLoop]
    split
    · exact ih hrest (by omega) hother
    · exact ih hrest hbest hother

theorem length_collapseWhitespace_le {raw : List UInt16} {n : Nat} (h : raw.length ≤ n) : (collapseWhitespace raw).length ≤ n :=
  Nat.le_trans (length_collapse_le false raw) h

/-- `pickOccurrence` picks the first occurrence around which the source goes on with both contexts, when there is one. -/
theorem pickOccurrence_first {normSource : List UInt16} {first o needleLength : Nat} {rest : List Nat}
    {beforeContext afterContext : Option (List UInt16)} (hsorted : (first :: rest).Pairwise (· < ·))
    (hin : ∀ x ∈ first :: rest, x ≤ normSource.length) (ho : o ∈ first :: rest)
    (hbefore : (beforeContext.getD []).length ≤ 200) (hafter : (afterContext.getD []).length ≤ 200)
    (hcontinues : Continues normSource needleLength (collapseWhitespace (beforeContext.getD []))
      (collapseWhitespace (afterContext.getD [])) o)
    (hearlier : ∀ x ∈ first :: rest, x < o → ¬ Continues normSource needleLength (collapseWhitespace (beforeContext.getD []))
      (collapseWhitespace (afterContext.getD [])) x) :
    pickOccurrence normSource first rest needleLength beforeContext afterContext = o := by
  have hscore := fun x hx => score_spec (length_collapseWhitespace_le hbefore) (length_collapseWhitespace_le hafter) needleLength
    (hin x hx)
  unfold pickOccurrence
  split
  · rename_i hfirst
    by_contra hne
    have hlater : o ∈ rest := (List.mem_cons.mp ho).resolve_left (Ne.symm hne)
    rcases hfirst with hrest | ⟨hb, ha⟩
    · rw [List.length_eq_zero_iff.mp hrest] at hlater
      exact List.not_mem_nil hlater
    · refine hearlier first List.mem_cons_self ((List.pairwise_cons.mp hsorted).1 o hlater) ?_
      rw [hb, ha]
      exact ⟨List.nil_suffix, List.nil_prefix⟩
  · obtain ⟨before, after, hsplit⟩ := List.append_of_mem ho
    have hbelow : ∀ x ∈ before, x < o := by
      rw [hsplit] at hsorted
      exact fun x hx => (List.pairwise_append.mp hsorted).2.2 x hx o List.mem_cons_self
    have hmem : ∀ x ∈ before, x ∈ first :: rest := fun x hx => hsplit ▸ List.mem_append_left _ hx
    dsimp only
    rw [hsplit] at hscore ⊢
    refine pickLoop_first (fun x hx => (hscore x hx).1) (by omega) ((hscore o ?_).2.mpr hcontinues) ?_
    · exact List.mem_append_right _ List.mem_cons_self
    · exact fun x hx hfull => hearlier x (hmem x hx) (hbelow x hx) ((hscore x (List.mem_append_left _ hx)).2.mp hfull)

end DocAnchor

end FirstTree
