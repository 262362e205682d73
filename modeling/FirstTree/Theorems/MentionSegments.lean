import FirstTree.Theorems.Mentions

/-!
# Segments of a message

`segmentMentions` loses nothing of a message, never makes two texts of one, and makes a chip of every mention outside code that
names a participant, and of nothing else.
-/

namespace FirstTree

open Mentions CodeRangesAux

/-- The text of a message that a segment stands for. -/
def MentionSegment.source : MentionSegment → List Char
  | .text value => value
  | .mention value _ _ => value

/-- A segment of text. -/
def MentionSegment.isText : MentionSegment → Bool
  | .text _ => true
  | .mention _ _ _ => false

/-- The segments with the positions their texts start at. -/
def placedFrom (start : Nat) : List MentionSegment → List (Nat × MentionSegment)
  | [] => []
  | s :: segments => (start, s) :: placedFrom (start + s.source.length) segments

/-- The text has a mention at a position: an `@` after a character that allows one, and the name. -/
def Occurs (content : List Char) (i : Nat) (token : List Char) : Prop :=
  mentionAt (content.take i).getLast? (content.drop i) = some token

/-- What the segments of a message should be. -/
structure ExactSegments (toLowerCase : List Char → List Char) (content : List Char) (participants : List MentionParticipant)
    (segments : List MentionSegment) : Prop where
  source : segments.flatMap (·.source) = content
  noAdjacentTexts : segments.IsChain fun s s' => ¬ (s.isText = true ∧ s'.isText = true)
  mentions : ∀ i value name agentId, (i, .mention value name agentId) ∈ placedFrom 0 segments ↔
    ∃ token p, value = '@' :: token ∧ Occurs content i token ∧
      (∀ j, i ≤ j → j < i + value.length → ¬ Covered (codeMatches content) j) ∧ resolve toLowerCase participants token = some p ∧
        p.name = some name ∧ p.agentId = agentId
  named : ∀ i value name agentId, (i, .mention value name agentId) ∈ placedFrom 0 segments →
    ∃ token, value = '@' :: token ∧ ∃ p ∈ participants, p.name = some name ∧ toLowerCase name = toLowerCase token
  single : ∀ i value name agentId, (i, .mention value name agentId) ∈ placedFrom 0 segments →
    ∀ j token, Occurs content j token → i ≤ j → j < i + value.length → j = i

namespace MentionSegmentsAux

/-! ## Where mentions are -/

/-- A name holds name characters only, so no `@`. -/
theorem nameAt_spec {rest name : List Char} (h : nameAt rest = some name) :
    (∃ after, rest = name ++ after) ∧ ∀ c ∈ name, isNameChar c = true := by
  unfold nameAt at h
  dsimp only at h
  split at h
  · obtain rfl := Option.some.inj h
    exact ⟨⟨_, (List.takeWhile_append_dropWhile).symm⟩, fun c hc => List.mem_takeWhile_imp hc⟩
  · cases h

/-- A mention is an `@` and a name. -/
theorem mentionAt_spec {prev : Option Char} {l name : List Char} (h : mentionAt prev l = some name) :
    (∃ after, l = '@' :: (name ++ after)) ∧ ∀ c ∈ name, isNameChar c = true := by
  cases l with
  | nil => cases h
  | cons c rest =>
    simp only [mentionAt] at h
    split at h
    · rename_i hc
      obtain ⟨⟨after, rfl⟩, hname⟩ := nameAt_spec h
      exact ⟨⟨after, by rw [hc.1]⟩, hname⟩
    · cases h

/-- The scan finds the mentions of the text. -/
theorem mem_matchMentions {content : List Char} {i : Nat} {token : List Char} :
    (i, token) ∈ matchMentions content ↔ Occurs content i token := by
  unfold matchMentions Occurs
  by_cases hi : content[i]? = some '@'
  · have hdrop : content.drop i = '@' :: content.drop (i + 1) := by
      obtain ⟨hlt, hat⟩ := List.getElem?_eq_some_iff.mp hi
      rw [List.drop_eq_getElem_cons hlt, hat]
    rw [MentionsAux.mem_mentionsFrom_iff (MentionsAux.zipIdx_increasing content 0) (List.mem_zipIdx_iff_getElem?.mpr hi),
      MentionsAux.before_zipIdx, MentionsAux.since_zipIdx, hdrop, mentionAt, Nat.sub_zero, Nat.sub_zero]
    cases (content.take i).getLast?.any blocksMention <;> simp
  · constructor
    · intro h
      exact absurd (List.mem_zipIdx_iff_getElem?.mp (MentionsAux.mentionsFrom_position h)) hi
    · intro h
      obtain ⟨⟨after, hat⟩, _⟩ := mentionAt_spec h
      have hhead : (content.drop i).head? = some '@' := by rw [hat, List.head?_cons]
      rw [List.head?_drop] at hhead
      exact absurd hhead hi

/-- Mentions in order, each where it says, and none before the end of the last. -/
def Placed (content : List Char) : Nat → List (Nat × List Char) → Prop
  | _, [] => True
  | cursor, (i, token) :: rest =>
    cursor ≤ i ∧ (∃ after, content.drop i = '@' :: (token ++ after)) ∧ Placed content (i + (token.length + 1)) rest

/-- Placed mentions are placed from every position that is not after the first. -/
theorem Placed.of_le {content : List Char} {cursor cursor' : Nat} {mentions : List (Nat × List Char)}
    (h : Placed content cursor mentions) (hle : ∀ m ∈ mentions.head?, cursor' ≤ m.1) : Placed content cursor' mentions := by
  cases mentions with
  | nil => trivial
  | cons m rest => exact ⟨hle m rfl, h.2⟩

/-- Placed mentions are placed from every earlier position. -/
theorem Placed.mono {content : List Char} {cursor cursor' : Nat} {mentions : List (Nat × List Char)}
    (h : Placed content cursor mentions) (hle : cursor' ≤ cursor) : Placed content cursor' mentions := by
  refine h.of_le fun m hm => ?_
  cases mentions with
  | nil => cases hm
  | cons m' rest =>
    obtain rfl := Option.some.inj hm
    exact hle.trans h.1

/-- The mentions of what follows a position are placed from there on. -/
theorem placed_mentionsFrom {content s : List Char} {prev : Option Char} {k : Nat} (hs : content.drop k = s) :
    Placed content k (mentionsFrom prev (s.zipIdx k)) := by
  induction s generalizing prev k with
  | nil => trivial
  | cons c rest ih =>
    have hrest : content.drop (k + 1) = rest := by
      rw [← List.drop_drop, hs, List.drop_one, List.tail_cons]
    have hnext := @ih (some c) _ hrest
    rw [List.zipIdx_cons, mentionsFrom, List.zipIdx_map_fst]
    split
    · rename_i name hname
      obtain ⟨⟨after, heq⟩, hchars⟩ := mentionAt_spec hname
      obtain ⟨rfl, rfl⟩ := List.cons.inj heq
      refine ⟨le_refl k, ⟨after, hs⟩, hnext.of_le fun m hm => ?_⟩
      -- A mention in the name would have its `@` there.
      by_contra hlt
      obtain ⟨hle, _, hget⟩ := List.mem_zipIdx (MentionsAux.mentionsFrom_position (List.mem_of_mem_head? hm))
      have hin : m.1 - (k + 1) < name.length := by omega
      rw [List.getElem_append_left hin] at hget
      exact absurd (hchars _ (hget ▸ List.getElem_mem hin)) (by decide)
    · exact hnext.mono (Nat.le_succ k)

/-! ## What the loop emits -/

variable {toLowerCase : List Char → List Char} {content : List Char} {participants : List MentionParticipant}
  {skipRanges : List (Nat × Nat)}

/-- The text before a mention, if there is any. -/
def textBefore (content : List Char) (cursor index : Nat) : List MentionSegment :=
  if cursor < index then [.text ((content.drop cursor).take (index - cursor))] else []

/-- What is before a mention is emitted whole. -/
theorem source_textBefore {cursor index : Nat} (h : cursor ≤ index) :
    (textBefore content cursor index).flatMap (·.source) ++ content.drop index = content.drop cursor := by
  have hdrop : content.drop index = (content.drop cursor).drop (index - cursor) := by
    rw [List.drop_drop, Nat.add_sub_cancel' h]
  unfold textBefore
  split
  · rw [hdrop, List.flatMap_singleton]
    exact List.take_append_drop (index - cursor) (content.drop cursor)
  · rw [show cursor = index by omega, List.flatMap_nil, List.nil_append]

variable (toLowerCase content participants skipRanges) in
/-- The loop skips a mention in code, or one that names nobody, and emits the text before another one, and its chip. -/
theorem segmentsFrom_cons (cursor index : Nat) (token : List Char) (rest : List (Nat × List Char)) :
    (segmentsFrom toLowerCase content participants skipRanges cursor ((index, token) :: rest) =
        segmentsFrom toLowerCase content participants skipRanges cursor rest ∧
      (isInCodeRange index skipRanges = true ∨ resolve toLowerCase participants token = none)) ∨
    ∃ p, isInCodeRange index skipRanges = false ∧ resolve toLowerCase participants token = some p ∧
      segmentsFrom toLowerCase content participants skipRanges cursor ((index, token) :: rest) =
        textBefore content cursor index ++ .mention ('@' :: token) (p.name.getD []) p.agentId ::
          segmentsFrom toLowerCase content participants skipRanges (index + (token.length + 1)) rest := by
  rw [segmentsFrom]
  split
  · rename_i hcode
    exact .inl ⟨rfl, .inl hcode⟩
  · rename_i hcode
    split
    · rename_i hnone
      exact .inl ⟨rfl, .inr hnone⟩
    · rename_i p hp
      exact .inr ⟨p, by simpa using hcode, hp, rfl⟩

/-- The loop emits the text from its cursor on. -/
theorem source_segmentsFrom {cursor : Nat} {mentions : List (Nat × List Char)} (h : Placed content cursor mentions) :
    (segmentsFrom toLowerCase content participants skipRanges cursor mentions).flatMap (·.source) = content.drop cursor := by
  induction mentions generalizing cursor with
  | nil =>
    unfold segmentsFrom
    split
    · exact List.flatMap_singleton _ _
    · rename_i hend
      rw [List.drop_eq_nil_of_le (not_lt.mp hend), List.flatMap_nil]
  | cons m rest ih =>
    obtain ⟨index, token⟩ := m
    obtain ⟨hle, ⟨after, hdrop⟩, hrest⟩ := h
    rcases segmentsFrom_cons toLowerCase content participants skipRanges cursor index token rest with ⟨heq, _⟩ | ⟨p, _, _, heq⟩
    · rw [heq]
      exact ih (hrest.mono (by omega))
    · have hafter : content.drop (index + (token.length + 1)) = after := by
        rw [← List.drop_drop, hdrop, List.drop_succ_cons, List.drop_left]
      rw [heq, List.flatMap_append, List.flatMap_cons, ih hrest, hafter, ← source_textBefore hle, hdrop]
      rfl

/-- A chain with one more element in front. -/
theorem isChain_cons {α : Type} {R : α → α → Prop} {a : α} {l : List α} (h : ∀ b ∈ l.head?, R a b) (hl : l.IsChain R) :
    (a :: l).IsChain R := by
  cases l with
  | nil => exact .singleton a
  | cons b l => exact .cons_cons (h b rfl) hl

/-- Two texts never follow one another: a text is followed by a chip, or ends the message. -/
theorem noAdjacentTexts_segmentsFrom (cursor : Nat) (mentions : List (Nat × List Char)) :
    (segmentsFrom toLowerCase content participants skipRanges cursor mentions).IsChain
      fun s s' => ¬ (s.isText = true ∧ s'.isText = true) := by
  induction mentions generalizing cursor with
  | nil =>
    unfold segmentsFrom
    split
    · exact .singleton _
    · exact .nil
  | cons m rest ih =>
    obtain ⟨index, token⟩ := m
    rcases segmentsFrom_cons toLowerCase content participants skipRanges cursor index token rest with ⟨heq, _⟩ | ⟨p, _, _, heq⟩
    · rw [heq]
      exact ih cursor
    · have hchip : (.mention ('@' :: token) (p.name.getD []) p.agentId ::
          segmentsFrom toLowerCase content participants skipRanges (index + (token.length + 1)) rest).IsChain
            fun s s' : MentionSegment => ¬ (s.isText = true ∧ s'.isText = true) := by
        refine isChain_cons (fun s' _ htexts => ?_) (ih _)
        exact Bool.false_ne_true htexts.1
      rw [heq]
      unfold textBefore
      split
      · refine isChain_cons (fun s' hs' htexts => ?_) hchip
        obtain rfl := Option.some.inj hs'
        exact Bool.false_ne_true htexts.2
      · exact hchip

/-- The positions of segments one after the other. -/
theorem placedFrom_append (start : Nat) (segments segments' : List MentionSegment) :
    placedFrom start (segments ++ segments') =
      placedFrom start segments ++ placedFrom (start + (segments.flatMap (·.source)).length) segments' := by
  induction segments generalizing start with
  | nil => simp [placedFrom]
  | cons s segments ih => simp [placedFrom, ih, Nat.add_assoc]

/-- The chips are the mentions outside code that name somebody, at their positions. -/
theorem mem_placedFrom_segmentsFrom {cursor : Nat} {mentions : List (Nat × List Char)} (h : Placed content cursor mentions) (i : Nat)
    (value name agentId : List Char) :
    (i, .mention value name agentId) ∈
        placedFrom cursor (segmentsFrom toLowerCase content participants skipRanges cursor mentions) ↔
      ∃ token p, (i, token) ∈ mentions ∧ value = '@' :: token ∧ isInCodeRange i skipRanges = false ∧
        resolve toLowerCase participants token = some p ∧ p.name.getD [] = name ∧ p.agentId = agentId := by
  induction mentions generalizing cursor with
  | nil =>
    unfold segmentsFrom
    split <;> simp [placedFrom]
  | cons m rest ih =>
    obtain ⟨index, token⟩ := m
    obtain ⟨hle, ⟨after, hdrop⟩, hrest⟩ := h
    rcases segmentsFrom_cons toLowerCase content participants skipRanges cursor index token rest
      with ⟨heq, hskip⟩ | ⟨p, hcode, hp, heq⟩
    · rw [heq, ih (hrest.mono (by omega))]
      constructor
      · rintro ⟨token', p, hmem, hp⟩
        exact ⟨token', p, List.mem_cons_of_mem _ hmem, hp⟩
      · rintro ⟨token', p, hmem, hvalue, hcode, hp, hname⟩
        rcases List.mem_cons.mp hmem with hhead | hmem
        · obtain ⟨rfl, rfl⟩ := Prod.mk.inj hhead
          rcases hskip with hin | hnone
          · rw [hin] at hcode
            cases hcode
          · rw [hnone] at hp
            cases hp
        · exact ⟨token', p, hmem, hvalue, hcode, hp, hname⟩
    · have hbefore : cursor + ((textBefore content cursor index).flatMap (·.source)).length = index := by
        have hlen := congrArg List.length (@source_textBefore content _ _ hle)
        have hindex : (content.drop index).length ≠ 0 := by
          rw [hdrop]
          simp
        rw [List.length_append, List.length_drop, List.length_drop] at hlen
        rw [List.length_drop] at hindex
        omega
      have htext : (i, .mention value name agentId) ∉ placedFrom cursor (textBefore content cursor index) := by
        unfold textBefore
        split <;> simp [placedFrom]
      rw [heq, placedFrom_append, hbefore, List.mem_append, or_iff_right htext]
      have hnext : index + (MentionSegment.source (.mention ('@' :: token) (p.name.getD []) p.agentId)).length =
          index + (token.length + 1) := rfl
      rw [placedFrom, List.mem_cons, hnext, ih hrest]
      constructor
      · rintro (hhead | ⟨token', p', hmem, hp'⟩)
        · obtain ⟨rfl, hchip⟩ := Prod.mk.inj hhead
          injection hchip with hvalue hname hid
          exact ⟨token, p, List.mem_cons_self, hvalue, hcode, hp, hname.symm, hid.symm⟩
        · exact ⟨token', p', List.mem_cons_of_mem _ hmem, hp'⟩
      · rintro ⟨token', p', hmem, hvalue, hcode', hp', hname, hid⟩
        rcases List.mem_cons.mp hmem with hhead | hmem
        · obtain ⟨rfl, rfl⟩ := Prod.mk.inj hhead
          obtain rfl : p = p' := by
            rw [hp] at hp'
            exact Option.some.inj hp'
          exact .inl (by rw [hvalue, hname, hid])
        · exact .inr ⟨token', p', hmem, hvalue, hcode', hp', hname, hid⟩

/-! ## Code -/

/-- A code region starts with a fence character. -/
theorem fence_of_mem_codeMatches {r : Nat × Nat} (h : r ∈ codeMatches content) :
    (content.drop r.1).head? = some '\x60' ∨ (content.drop r.1).head? = some '~' := by
  have hfenced : ∀ (fence : Char) (l : List Char) (n : Nat), fencedAt fence l = some n → l.head? = some fence := by
    intro fence l n hm
    unfold fencedAt at hm
    split at hm
    · rename_i hprefix
      obtain ⟨rest, rfl⟩ := List.isPrefixOf_iff_prefix.mp hprefix
      rfl
    · cases hm
  have hinline : ∀ (l : List Char) (n : Nat), inlineAt l = some n → l.head? = some '\x60' := by
    intro l n hm
    cases l with
    | nil => cases hm
    | cons c rest =>
      simp only [inlineAt] at hm
      split at hm
      · rename_i hc
        rw [hc.1]
        rfl
      · cases hm
  unfold codeMatches at h
  rcases List.mem_append.mp h with h | h
  · rcases List.mem_append.mp h with h | h
    · obtain ⟨k, n, -, rfl, hm⟩ := Scan.range_of_mem h
      rw [Nat.zero_add]
      exact .inl (hfenced _ _ _ hm)
    · obtain ⟨k, n, -, rfl, hm⟩ := Scan.range_of_mem h
      rw [Nat.zero_add]
      exact .inr (hfenced _ _ _ hm)
  · obtain ⟨k, n, -, rfl, hm⟩ := Scan.range_of_mem h
    rw [Nat.zero_add]
    exact .inl (hinline _ _ hm)

/-- The characters of a mention are its `@`, and name characters after it. -/
theorem char_of_occurs {i j : Nat} {token : List Char} (h : Occurs content i token) (hlt : i < j) (hj : j < i + (token.length + 1)) :
    ∀ c ∈ (content.drop j).head?, isNameChar c = true := by
  obtain ⟨⟨after, hdrop⟩, hchars⟩ := mentionAt_spec h
  intro c hc
  obtain ⟨k, rfl⟩ := Nat.exists_eq_add_of_lt hlt
  have hk : k < token.length := by omega
  rw [Nat.add_assoc, ← List.drop_drop, hdrop, List.drop_succ_cons, List.drop_append_of_le_length hk.le,
    List.drop_eq_getElem_cons hk] at hc
  obtain rfl := Option.some.inj hc
  exact hchars _ (List.getElem_mem hk)

/-- Code that does not start before a mention starts after it. -/
theorem not_covered_of_occurs {i : Nat} {token : List Char} (h : Occurs content i token) (hi : ¬ Covered (codeMatches content) i) :
    ∀ j, i ≤ j → j < i + (token.length + 1) → ¬ Covered (codeMatches content) j := by
  rintro j hle hlt ⟨r, hr, hstart, hstop⟩
  by_cases hbefore : r.1 ≤ i
  · exact hi ⟨r, hr, hbefore, by omega⟩
  · have hname := char_of_occurs h (not_le.mp hbefore) (by omega : r.1 < i + (token.length + 1))
    rcases fence_of_mem_codeMatches hr with hfence | hfence
    · exact absurd (hname _ hfence) (by decide)
    · exact absurd (hname _ hfence) (by decide)

/-- A resolved participant has the name, whatever its case. -/
theorem resolve_spec {token : List Char} {p : MentionParticipant} (h : resolve toLowerCase participants token = some p) :
    p ∈ participants ∧ ∃ name, p.name = some name ∧ toLowerCase name = toLowerCase token := by
  refine ⟨List.mem_reverse.mp (List.mem_of_find?_eq_some h), ?_⟩
  have hfound := List.find?_some (p := fun p : MentionParticipant =>
    p.name.any fun name => name ≠ [] && toLowerCase name = toLowerCase token) h
  obtain ⟨name, hname, hmatch⟩ := (Option.any_eq_true _ _).mp hfound
  rw [Bool.and_eq_true, decide_eq_true_eq, decide_eq_true_eq] at hmatch
  exact ⟨name, hname, hmatch.2⟩

/-- Without named participants, no mention names anybody. -/
theorem segmentMentions_unnamed (hne : content ≠ []) (h : ¬ participants.any hasName = true) :
    segmentMentions toLowerCase content participants = [.text content] := by
  rw [segmentMentions, if_neg hne, if_neg h]

end MentionSegmentsAux

open MentionSegmentsAux

/-- The chips of a message are its mentions outside code that name a participant. -/
theorem mem_placedFrom_segmentMentions (toLowerCase : List Char → List Char) (content : List Char)
    (participants : List MentionParticipant) (i : Nat) (value name agentId : List Char) :
    (i, .mention value name agentId) ∈ placedFrom 0 (segmentMentions toLowerCase content participants) ↔
      ∃ token p, Occurs content i token ∧ value = '@' :: token ∧ ¬ Covered (codeMatches content) i ∧
        resolve toLowerCase participants token = some p ∧ p.name.getD [] = name ∧ p.agentId = agentId := by
  have hplaced : Placed content 0 (matchMentions content) := placed_mentionsFrom rfl
  have hcode : ∀ j, isInCodeRange j (codeRanges content) = false ↔ ¬ Covered (codeMatches content) j := by
    intro j
    rw [← isInCodeRange_codeRanges, Bool.not_eq_true]
  by_cases hne : content = []
  · subst hne
    simp [segmentMentions, placedFrom, Occurs, mentionAt]
  · by_cases hnamed : participants.any hasName = true
    · rw [segmentMentions, if_neg hne, if_pos hnamed, mem_placedFrom_segmentsFrom hplaced]
      simp only [mem_matchMentions, hcode]
    · rw [segmentMentions_unnamed hne hnamed]
      simp [placedFrom, MentionsAux.resolve_none toLowerCase hnamed]

/-- Concatenating the segments of a message gives it back, no two texts are adjacent, and the chips are the mentions outside code that
name a participant, each of exactly one of them. -/
theorem mention_segments_lossless_and_exact (toLowerCase : List Char → List Char) (content : List Char)
    (participants : List MentionParticipant) :
    ExactSegments toLowerCase content participants (segmentMentions toLowerCase content participants) := by
  have hplaced : Placed content 0 (matchMentions content) := placed_mentionsFrom rfl
  have hchips := mem_placedFrom_segmentMentions toLowerCase content participants
  refine ⟨?_, ?_, fun i value name agentId => ?_, fun i value name agentId h => ?_,
    fun i value name agentId h j token hj hle hlt => ?_⟩
  · by_cases hne : content = []
    · rw [segmentMentions, if_pos hne, hne, List.flatMap_nil]
    · by_cases hnamed : participants.any hasName = true
      · rw [segmentMentions, if_neg hne, if_pos hnamed, source_segmentsFrom hplaced, List.drop_zero]
      · rw [segmentMentions_unnamed hne hnamed]
        exact List.flatMap_singleton _ _
  · by_cases hne : content = []
    · rw [segmentMentions, if_pos hne]
      exact .nil
    · by_cases hnamed : participants.any hasName = true
      · rw [segmentMentions, if_neg hne, if_pos hnamed]
        exact noAdjacentTexts_segmentsFrom 0 _
      · rw [segmentMentions_unnamed hne hnamed]
        exact .singleton _
  · rw [hchips]
    constructor
    · rintro ⟨token, p, hoccurs, rfl, hcode, hp, rfl, rfl⟩
      obtain ⟨_, name, hname, _⟩ := resolve_spec hp
      exact ⟨token, p, rfl, hoccurs, not_covered_of_occurs hoccurs hcode, hp, by rw [hname]; rfl, rfl⟩
    · rintro ⟨token, p, rfl, hoccurs, hcode, hp, hname, rfl⟩
      exact ⟨token, p, hoccurs, rfl, hcode i (le_refl i) (by simp), hp, by rw [hname]; rfl, rfl⟩
  · obtain ⟨token, p, _, rfl, _, hp, rfl, _⟩ := (hchips i value name agentId).mp h
    obtain ⟨hmem, name, hname, hlower⟩ := resolve_spec hp
    exact ⟨token, rfl, p, hmem, by rw [hname]; rfl, by rw [hname]; exact hlower⟩
  · obtain ⟨token', p, hoccurs, rfl, _⟩ := (hchips i value name agentId).mp h
    by_contra hne
    have hname := char_of_occurs hoccurs (by omega : i < j) (by simpa using hlt)
    obtain ⟨⟨after, hdrop⟩, _⟩ := mentionAt_spec hj
    exact absurd (hname '@' (by rw [hdrop]; rfl)) (by decide)

end FirstTree
