import Mathlib.Data.List.Perm.Subperm
import Mathlib.Data.List.TakeWhile
import FirstTree.Shared.Mentions

/-!
# The two mention resolvers

Deleting code regions brings characters together that were apart, so the text that `extractMentions` scans may gain or lose a mention
that `segmentMentions` sees. An `@` is undisturbed when both or neither of them can start a mention there, and what is left after it
goes on like the text; if every `@` that concerns a participant is undisturbed, the two resolvers agree.
-/

namespace FirstTree

open Mentions

/-! ## Code ranges -/

namespace CodeRangesAux

/-- A position is in one of the ranges. -/
def Covered (ranges : List (Nat × Nat)) (i : Nat) : Prop :=
  ∃ r ∈ ranges, r.1 ≤ i ∧ i < r.2

/-- The search may stop early because the ranges are in the order of their starts. -/
theorem isInCodeRange_iff {ranges : List (Nat × Nat)} (h : ranges.Pairwise (·.1 ≤ ·.1)) (i : Nat) :
    isInCodeRange i ranges = true ↔ Covered ranges i := by
  induction ranges with
  | nil => simp [isInCodeRange, Covered]
  | cons r rest ih =>
    obtain ⟨start, stop⟩ := r
    obtain ⟨hfirst, hrest⟩ := List.pairwise_cons.mp h
    unfold isInCodeRange
    split
    · rename_i hlt
      refine ⟨fun hf => absurd hf (by simp), ?_⟩
      rintro ⟨r, hr, hle, _⟩
      rcases List.mem_cons.mp hr with rfl | hr
      · exact absurd hle (by simpa using hlt)
      · have hstart : start ≤ r.1 := hfirst r hr
        omega
    · rename_i hge
      split
      · rename_i hlt
        exact ⟨fun _ => ⟨(start, stop), List.mem_cons_self, by simpa using hge, hlt⟩, fun _ => rfl⟩
      · rename_i hout
        rw [ih hrest]
        constructor
        · rintro ⟨r, hr, hin⟩
          exact ⟨r, List.mem_cons_of_mem _ hr, hin⟩
        · rintro ⟨r, hr, hin⟩
          rcases List.mem_cons.mp hr with rfl | hr
          · exact absurd hin.2 hout
          · exact ⟨r, hr, hin⟩

/-- Merging keeps the order of the starts and what is covered. -/
theorem mergeRanges_spec (last : Nat × Nat) {ranges : List (Nat × Nat)} (h : (last :: ranges).Pairwise (·.1 ≤ ·.1)) :
    (mergeRanges last ranges).Pairwise (·.1 ≤ ·.1) ∧ (∀ r ∈ mergeRanges last ranges, last.1 ≤ r.1) ∧
      ∀ i, Covered (mergeRanges last ranges) i ↔ Covered (last :: ranges) i := by
  induction ranges generalizing last with
  | nil => exact ⟨h, by simp [mergeRanges], fun i => Iff.rfl⟩
  | cons next rest ih =>
    obtain ⟨hlast, hrest⟩ := List.pairwise_cons.mp h
    have hnext : last.1 ≤ next.1 := hlast next List.mem_cons_self
    unfold mergeRanges
    split
    · rename_i htouch
      have hmerged : ((last.1, max last.2 next.2) :: rest).Pairwise (·.1 ≤ ·.1) :=
        List.pairwise_cons.mpr ⟨fun r hr => hlast r (List.mem_cons_of_mem _ hr), (List.pairwise_cons.mp hrest).2⟩
      obtain ⟨hsorted, hlow, hcover⟩ := ih (last.1, max last.2 next.2) hmerged
      refine ⟨hsorted, hlow, fun i => ?_⟩
      rw [hcover]
      simp only [Covered, List.mem_cons, exists_eq_or_imp]
      have hunion : (last.1 ≤ i ∧ i < max last.2 next.2) ↔ (last.1 ≤ i ∧ i < last.2) ∨ (next.1 ≤ i ∧ i < next.2) := by omega
      rw [hunion, or_assoc]
    · obtain ⟨hsorted, hlow, hcover⟩ := ih next hrest
      refine ⟨List.pairwise_cons.mpr ⟨fun r hr => hnext.trans (hlow r hr), hsorted⟩, ?_, fun i => ?_⟩
      · intro r hr
        rcases List.mem_cons.mp hr with rfl | hr
        · exact Nat.le_refl _
        · exact hnext.trans (hlow r hr)
      · have hi := hcover i
        simp only [Covered, List.mem_cons, exists_eq_or_imp] at hi ⊢
        rw [hi]

end CodeRangesAux

open CodeRangesAux

/-- A position is in a code range exactly when one of the three patterns matches over it. -/
theorem isInCodeRange_codeRanges (content : List Char) (i : Nat) :
    isInCodeRange i (codeRanges content) = true ↔ Covered (codeMatches content) i := by
  unfold codeRanges
  dsimp only
  split
  · rename_i hlen
    refine isInCodeRange_iff ?_ i
    match h : codeMatches content, hlen with
    | [], _ => exact .nil
    | [r], _ => exact List.pairwise_singleton _ r
  · have hperm := List.perm_insertionSort (fun a b : Nat × Nat => a.1 ≤ b.1) (codeMatches content)
    have hsorted : ((codeMatches content).insertionSort (·.1 ≤ ·.1)).Pairwise (·.1 ≤ ·.1) := by
      have hmap : ((codeMatches content).insertionSort (·.1 ≤ ·.1)).map (·.1) =
          ((codeMatches content).map (·.1)).insertionSort (· ≤ ·) := List.map_insertionSort _ _ _ _ fun _ _ _ _ => Iff.rfl
      rw [← List.pairwise_map (f := Prod.fst) (R := (· ≤ ·)), hmap]
      exact List.sortedLE_insertionSort.pairwise
    have hcover : Covered ((codeMatches content).insertionSort (·.1 ≤ ·.1)) i ↔ Covered (codeMatches content) i := by
      simp only [Covered, hperm.mem_iff]
    rw [← hcover]
    split
    · rename_i hnil
      simp [hnil, isInCodeRange, Covered]
    · rename_i first rest hcons
      rw [hcons] at hsorted ⊢
      obtain ⟨hmerged, _, hsame⟩ := mergeRanges_spec first hsorted
      rw [isInCodeRange_iff hmerged, hsame]

/-! ## What is left of a text, by position -/

/-- The characters `stripCode` leaves, with their positions in the original text. -/
def keptChars (content : List Char) : List (Char × Nat) :=
  strip (·.1) content.zipIdx

/-- The positions `stripCode` leaves. -/
def keptPositions (content : List Char) : List Nat :=
  (keptChars content).map (·.2)

/-- The mentions `extractMentions` sees, by their positions in the original text. -/
def extractedMentions (content : List Char) : List (Nat × List Char) :=
  mentionsFrom none (keptChars content)

/-- The mentions `segmentMentions` sees. -/
def segmentedMentions (content : List Char) : List (Nat × List Char) :=
  (matchMentions content).filter fun m => ! isInCodeRange m.1 (codeRanges content)

/-- The position after the name characters that follow position `i`. -/
def nameEnd (content : List Char) (i : Nat) : Nat :=
  i + 1 + ((content.drop (i + 1)).takeWhile isNameChar).length

/-- The characters before a position, of a text by position. -/
def before (i : Nat) (l : List (Char × Nat)) : List Char :=
  (l.filter fun x => x.2 < i).map (·.1)

/-- The characters from a position on, of a text by position. -/
def since (i : Nat) (l : List (Char × Nat)) : List Char :=
  (l.filter fun x => i ≤ x.2).map (·.1)

/-- A mention may start at a position of the text: it is outside the code ranges and the character before it allows one. -/
def Opens (content : List Char) (i : Nat) : Prop :=
  isInCodeRange i (codeRanges content) = false ∧ (content.take i).getLast?.any blocksMention = false

/-- A mention may start at a position of what is left of the text. -/
def OpensKept (content : List Char) (i : Nat) : Prop :=
  i ∈ keptPositions content ∧ (before i (keptChars content)).getLast?.any blocksMention = false

instance (content : List Char) (i : Nat) : Decidable (Opens content i) := inferInstanceAs (Decidable (_ ∧ _))

instance (content : List Char) (i : Nat) : Decidable (OpensKept content i) := inferInstanceAs (Decidable (_ ∧ _))

/-- Deleting code does not disturb the `@` at a position: a mention may start there before and after, and then its name is left
whole, no name character is moved next to it, and a slash follows it after the deletion as it did before. -/
structure Undisturbed (content : List Char) (i : Nat) : Prop where
  opens : Opens content i ↔ OpensKept content i
  whole : Opens content i → ∀ j < nameEnd content i, i < j → j ∈ keptPositions content
  ends : Opens content i → (since (nameEnd content i) (keptChars content)).head?.any isNameChar = false
  slash : Opens content i →
    ((since (nameEnd content i) (keptChars content)).head? = some '/' ↔ content[nameEnd content i]? = some '/')

/-- A mention may start at a position, of the text or of what is left of it, and the name there is one of a participant. -/
def Concerns (toLowerCase : List Char → List Char) (participants : List MentionParticipant) (content : List Char) (i : Nat) : Prop :=
  (Opens content i ∧ ((nameAt (content.drop (i + 1))).bind (resolve toLowerCase participants)).isSome = true) ∨
    (OpensKept content i ∧
      ((nameAt (since (i + 1) (keptChars content))).bind (resolve toLowerCase participants)).isSome = true)

/-- A mention of a list names an agent. -/
def Names (toLowerCase : List Char → List Char) (participants : List MentionParticipant) (mentions : List (Nat × List Char))
    (agentId : List Char) : Prop :=
  ∃ m ∈ mentions, (resolve toLowerCase participants m.2).map (·.agentId) = some agentId

namespace MentionsAux

theorem keptChars_sublist (content : List Char) : (keptChars content).Sublist content.zipIdx :=
  (Scan.eraseAll_sublist _ _ _ _).trans ((Scan.eraseAll_sublist _ _ _ _).trans (Scan.eraseAll_sublist _ _ _ _))

theorem keptChars_chars (content : List Char) : (keptChars content).map (·.1) = stripCode content := by
  have h := fun m (l : List (Char × Nat)) => Scan.map_eraseAll m id Prod.fst 0 l
  simp only [id] at h
  rw [keptChars, strip, h, h, h, List.zipIdx_map_fst]
  rfl

theorem position_nodup (content : List Char) : (content.zipIdx.map (·.2)).Nodup := by
  rw [List.zipIdx_map_snd]
  exact List.nodup_range'

theorem zipIdx_nodup (content : List Char) : content.zipIdx.Nodup :=
  List.Nodup.of_map (·.2) (position_nodup content)

/-! ### The names at a position -/

/-- The names of a text depend on its characters alone. -/
theorem mentionsFrom_names (prev : Option Char) {l l' : List (Char × Nat)} (h : l.map (·.1) = l'.map (·.1)) :
    (mentionsFrom prev l).map (·.2) = (mentionsFrom prev l').map (·.2) := by
  induction l generalizing prev l' with
  | nil =>
    rw [List.map_nil, eq_comm, List.map_eq_nil_iff] at h
    rw [h]
  | cons a l ih =>
    cases l' with
    | nil => simp at h
    | cons a' l' =>
      obtain ⟨hc, hl⟩ := List.cons.inj h
      obtain ⟨c, i⟩ := a
      obtain ⟨c', i'⟩ := a'
      obtain rfl : c = c' := hc
      unfold mentionsFrom
      rw [hl]
      split
      · rw [List.map_cons, List.map_cons, ih (some c) hl]
      · exact ih (some c) hl

theorem mentionsFrom_position {prev : Option Char} {l : List (Char × Nat)} {m : Nat × List Char} (h : m ∈ mentionsFrom prev l) :
    ('@', m.1) ∈ l := by
  induction l generalizing prev with
  | nil => exact absurd h (by simp [mentionsFrom])
  | cons a l ih =>
    obtain ⟨c, i⟩ := a
    unfold mentionsFrom at h
    split at h
    · rename_i name hname
      rcases List.mem_cons.mp h with rfl | h
      · simp only [mentionAt] at hname
        split at hname
        · rename_i hc
          rw [hc.1]
          exact List.mem_cons_self
        · exact absurd hname (by simp)
      · exact List.mem_cons_of_mem _ (ih h)
    · exact List.mem_cons_of_mem _ (ih h)

/-- The character before a position. -/
def charBefore (prev : Option Char) (before : List (Char × Nat)) : Option Char :=
  (before.getLast?.map (·.1)).or prev

/-- Whether a position of a text is a mention is read off the character before it and what follows. -/
theorem mem_mentionsFrom_at {prev : Option Char} {a b : List (Char × Nat)} {c : Char} {i : Nat} {name : List Char}
    (ha : ∀ x ∈ a, x.2 ≠ i) (hb : ∀ x ∈ b, x.2 ≠ i) :
    (i, name) ∈ mentionsFrom prev (a ++ (c, i) :: b) ↔ mentionAt (charBefore prev a) (c :: b.map (·.1)) = some name := by
  induction a generalizing prev with
  | nil =>
    have hrest : (i, name) ∉ mentionsFrom (some c) b := fun h => hb _ (mentionsFrom_position h) rfl
    rw [List.nil_append, mentionsFrom]
    simp only [charBefore, List.getLast?_nil, Option.map_none, Option.none_or]
    split
    · rename_i name' hname
      rw [hname]
      simp only [List.mem_cons, Prod.mk.injEq, true_and, hrest, or_false, Option.some.injEq]
      exact eq_comm
    · rename_i hname
      rw [hname]
      simpa using hrest
  | cons x a ih =>
    obtain ⟨d, j⟩ := x
    have hj : i ≠ j := fun h => ha (d, j) List.mem_cons_self h.symm
    have hbefore : charBefore prev ((d, j) :: a) = charBefore (some d) a := by
      unfold charBefore
      cases a with
      | nil => rfl
      | cons y a =>
        rw [List.getLast?_cons_cons]
        cases h : (y :: a).getLast? with
        | none => simp at h
        | some z => rfl
    rw [List.cons_append, mentionsFrom, hbefore, ← ih fun y hy => ha y (List.mem_cons_of_mem _ hy)]
    split
    · simp [hj]
    · exact Iff.rfl

/-- In a text by position, whether a mention starts at an `@` is read off the characters before and after it. -/
theorem mem_mentionsFrom_iff {l : List (Char × Nat)} (hl : l.Pairwise fun x y => x.2 < y.2) {i : Nat} (hi : ('@', i) ∈ l)
    (name : List Char) :
    (i, name) ∈ mentionsFrom none l ↔
      (before i l).getLast?.any blocksMention = false ∧ nameAt (since (i + 1) l) = some name := by
  obtain ⟨a, b, rfl⟩ := List.append_of_mem hi
  obtain ⟨_, hb, hab⟩ := List.pairwise_append.mp hl
  have hlow : ∀ x ∈ a, x.2 < i := fun x hx => hab x hx _ List.mem_cons_self
  have hhigh : ∀ x ∈ b, i < x.2 := (List.pairwise_cons.mp hb).1
  have hbefore : before i (a ++ ('@', i) :: b) = a.map (·.1) := by
    rw [before, List.filter_append, List.filter_cons_of_neg (by simp), List.filter_eq_self.mpr (by simpa using hlow),
      List.filter_eq_nil_iff.mpr (by simpa using fun c k hx => (hhigh (c, k) hx).le), List.append_nil]
  have hsince : since (i + 1) (a ++ ('@', i) :: b) = b.map (·.1) := by
    rw [since, List.filter_append, List.filter_cons_of_neg (by simp),
      List.filter_eq_nil_iff.mpr (by simpa using fun c k hx => Nat.lt_succ_of_lt (hlow (c, k) hx)),
      List.filter_eq_self.mpr (by simpa [Nat.succ_le_iff] using hhigh), List.nil_append]
  rw [mem_mentionsFrom_at (fun x hx => (hlow x hx).ne) (fun x hx => (hhigh x hx).ne'), hbefore, hsince, charBefore, Option.or_none,
    mentionAt, List.getLast?_map]
  cases (a.getLast?.map (·.1)).any blocksMention <;> simp

/-! ### The positions of a text -/

theorem since_zipIdx (content : List Char) (n i : Nat) : since i (content.zipIdx n) = content.drop (i - n) := by
  induction content generalizing n with
  | nil => simp [since]
  | cons c content ih =>
    rw [List.zipIdx_cons, since, List.filter_cons]
    have hrest := ih (n + 1)
    rw [since] at hrest
    split
    · rename_i hle
      simp only [decide_eq_true_eq] at hle
      rw [List.map_cons, hrest, Nat.sub_eq_zero_of_le hle, Nat.sub_eq_zero_of_le (hle.trans n.le_succ)]
      simp
    · rename_i hlt
      simp only [decide_eq_true_eq, not_le] at hlt
      obtain ⟨k, rfl⟩ : ∃ k, i = n + 1 + k := ⟨i - (n + 1), by omega⟩
      rw [hrest, show n + 1 + k - (n + 1) = k by omega, show n + 1 + k - n = k + 1 by omega, List.drop_succ_cons]

theorem before_zipIdx (content : List Char) (n i : Nat) : before i (content.zipIdx n) = content.take (i - n) := by
  induction content generalizing n with
  | nil => simp [before]
  | cons c content ih =>
    rw [List.zipIdx_cons, before, List.filter_cons]
    have hrest := ih (n + 1)
    rw [before] at hrest
    split
    · rename_i hlt
      simp only [decide_eq_true_eq] at hlt
      obtain ⟨k, rfl⟩ : ∃ k, i = n + 1 + k := ⟨i - (n + 1), by omega⟩
      rw [List.map_cons, hrest, show n + 1 + k - (n + 1) = k by omega, show n + 1 + k - n = k + 1 by omega, List.take_succ_cons]
    · rename_i hle
      simp only [decide_eq_true_eq, not_lt] at hle
      rw [hrest, Nat.sub_eq_zero_of_le hle, Nat.sub_eq_zero_of_le (hle.trans n.le_succ)]
      simp

theorem zipIdx_increasing (content : List Char) (n : Nat) : (content.zipIdx n).Pairwise fun x y => x.2 < y.2 := by
  rw [← List.pairwise_map (f := Prod.snd) (R := (· < ·)), List.zipIdx_map_snd]
  exact List.pairwise_lt_range'

theorem keptChars_increasing (content : List Char) : (keptChars content).Pairwise fun x y => x.2 < y.2 :=
  (zipIdx_increasing content 0).sublist (keptChars_sublist content)

/-- What comes from a position on is what comes up to a later one and what comes from there on. -/
theorem since_split {l : List (Char × Nat)} (hl : l.Pairwise fun x y => x.2 < y.2) {i k : Nat} (hik : i ≤ k) :
    since i l = (l.filter fun x => i ≤ x.2 ∧ x.2 < k).map (·.1) ++ since k l := by
  induction l with
  | nil => rfl
  | cons x l ih =>
    obtain ⟨hx, hl⟩ := List.pairwise_cons.mp hl
    have hrest := ih hl
    simp only [since] at hrest ⊢
    by_cases hk : k ≤ x.2
    · -- From here on every position is the later one or after it.
      have hnone : (l.filter fun y => i ≤ y.2 ∧ y.2 < k) = [] :=
        List.filter_eq_nil_iff.mpr fun y hy hin => by
          have hlt := hx y hy
          simp only [decide_eq_true_eq] at hin
          omega
      rw [hnone, List.map_nil, List.nil_append] at hrest
      rw [List.filter_cons_of_pos (by simpa using hik.trans hk), List.filter_cons_of_neg (by simpa using fun _ => hk),
        List.filter_cons_of_pos (by simpa using hk), hnone, List.map_cons, hrest]
      rfl
    · by_cases hi : i ≤ x.2
      · rw [List.filter_cons_of_pos (by simpa using hi), List.filter_cons_of_pos (by simpa using ⟨hi, not_le.mp hk⟩),
          List.filter_cons_of_neg (by simpa using hk), List.map_cons, hrest]
        rfl
      · rw [List.filter_cons_of_neg (by simpa using hi), List.filter_cons_of_neg (by simp [hi]),
          List.filter_cons_of_neg (by simpa using hk), hrest]

/-! ### An undisturbed mention -/

/-- The name after an `@` is its run of name characters, whatever else follows but a slash. -/
theorem nameAt_append {run rest : List Char} (hrun : ∀ c ∈ run, isNameChar c = true) (hrest : rest.head?.any isNameChar = false) :
    nameAt (run ++ rest) =
      if run.head?.any Char.isAlphanum ∧ run.length ≤ 64 ∧ rest.head? ≠ some '/' then some run else none := by
  have hstop : rest.takeWhile isNameChar = [] ∧ rest.dropWhile isNameChar = rest := by
    cases rest with
    | nil => exact ⟨rfl, rfl⟩
    | cons c rest =>
      have hc : ¬ isNameChar c = true := by simpa using hrest
      exact ⟨List.takeWhile_cons_of_neg hc, List.dropWhile_cons_of_neg hc⟩
  simp only [nameAt, List.takeWhile_append_of_pos hrun, List.dropWhile_append_of_pos hrun, hstop, List.append_nil]

/-- The text after an `@` is the run of name characters and what comes from its end on. -/
theorem drop_eq_run (content : List Char) (i : Nat) :
    content.drop (i + 1) = (content.drop (i + 1)).takeWhile isNameChar ++ content.drop (nameEnd content i) := by
  have hsplit := List.takeWhile_append_dropWhile (p := isNameChar) (l := content.drop (i + 1))
  have hrest : content.drop (nameEnd content i) = (content.drop (i + 1)).dropWhile isNameChar := by
    have hdrop := congrArg (List.drop ((content.drop (i + 1)).takeWhile isNameChar).length) hsplit
    rw [List.drop_left] at hdrop
    rw [nameEnd, ← List.drop_drop, hdrop]
  rw [hrest, hsplit]

/-- What is left from a position on starts with the run of name characters of the text, when all of it is left. -/
theorem kept_run {content : List Char} {i : Nat} (hwhole : ∀ j < nameEnd content i, i < j → j ∈ keptPositions content) :
    since (i + 1) (keptChars content) =
      (content.drop (i + 1)).takeWhile isNameChar ++ since (nameEnd content i) (keptChars content) := by
  have hle : i + 1 ≤ nameEnd content i := Nat.le_add_right _ _
  have hsub := (keptChars_sublist content).filter fun x => i + 1 ≤ x.2 ∧ x.2 < nameEnd content i
  have hsame : ((keptChars content).filter fun x => i + 1 ≤ x.2 ∧ x.2 < nameEnd content i) =
      content.zipIdx.filter fun x => i + 1 ≤ x.2 ∧ x.2 < nameEnd content i := by
    refine hsub.eq_of_length_le (List.subperm_of_subset ((zipIdx_nodup content).filter _) fun x hx => ?_).length_le
    obtain ⟨hmem, hin⟩ := List.mem_filter.mp hx
    refine List.mem_filter.mpr ⟨?_, hin⟩
    simp only [decide_eq_true_eq] at hin
    obtain ⟨y, hy, hyx⟩ := List.mem_map.mp (hwhole x.2 hin.2 (Nat.lt_of_succ_le hin.1))
    rw [List.inj_on_of_nodup_map (position_nodup content) hmem ((keptChars_sublist content).subset hy) hyx.symm]
    exact hy
  have hrun : (content.zipIdx.filter fun x => i + 1 ≤ x.2 ∧ x.2 < nameEnd content i).map (·.1) =
      (content.drop (i + 1)).takeWhile isNameChar := by
    have hsplit := since_split (zipIdx_increasing content 0) hle
    rw [since_zipIdx, since_zipIdx, Nat.sub_zero, Nat.sub_zero] at hsplit
    exact List.append_cancel_right (hsplit.symm.trans (drop_eq_run content i))
  rw [since_split (keptChars_increasing content) hle, hsame, hrun]

/-- The name after an undisturbed `@` is the same before and after the deletion. -/
theorem nameAt_undisturbed {content : List Char} {i : Nat} (hu : Undisturbed content i) (ho : Opens content i) :
    nameAt (since (i + 1) (keptChars content)) = nameAt (content.drop (i + 1)) := by
  have hnames : ∀ c ∈ (content.drop (i + 1)).takeWhile isNameChar, isNameChar c = true := fun c hc => List.mem_takeWhile_imp hc
  have hhead : (content.drop (nameEnd content i)).head? = content[nameEnd content i]? := by
    rw [List.head?_eq_getElem?, List.getElem?_drop, Nat.add_zero]
  have hends : (content.drop (nameEnd content i)).head?.any isNameChar = false := by
    have hstop := List.head?_dropWhile_not isNameChar (content.drop (i + 1))
    have hrest : (content.drop (i + 1)).dropWhile isNameChar = content.drop (nameEnd content i) :=
      List.append_cancel_left (List.takeWhile_append_dropWhile.trans (drop_eq_run content i))
    rw [hrest] at hstop
    cases hc : (content.drop (nameEnd content i)).head? with
    | none => rfl
    | some c => simpa [hc] using hstop
  rw [kept_run (hu.whole ho)]
  conv_rhs => rw [drop_eq_run]
  rw [nameAt_append hnames (hu.ends ho), nameAt_append hnames hends]
  simp only [ne_eq, hu.slash ho, hhead]

/-- A mention that `segmentMentions` sees starts where one may. -/
theorem mem_segmentedMentions {content : List Char} {i : Nat} (hi : content[i]? = some '@') (name : List Char) :
    (i, name) ∈ segmentedMentions content ↔ Opens content i ∧ nameAt (content.drop (i + 1)) = some name := by
  have hmem : ('@', i) ∈ content.zipIdx := List.mem_zipIdx_iff_getElem?.mpr hi
  rw [segmentedMentions, List.mem_filter, matchMentions, mem_mentionsFrom_iff (zipIdx_increasing content 0) hmem, since_zipIdx,
    before_zipIdx, Nat.sub_zero, Nat.sub_zero, Opens]
  simp only [Bool.not_eq_true']
  tauto

/-- A mention that `extractMentions` sees starts where one may in what is left. -/
theorem mem_extractedMentions {content : List Char} {i : Nat} (hi : content[i]? = some '@') (name : List Char) :
    (i, name) ∈ extractedMentions content ↔ OpensKept content i ∧ nameAt (since (i + 1) (keptChars content)) = some name := by
  by_cases hkept : i ∈ keptPositions content
  · obtain ⟨x, hx, hxi⟩ := List.mem_map.mp hkept
    have hat : x = ('@', i) := by
      have hget := List.mem_zipIdx_iff_getElem?.mp ((keptChars_sublist content).subset hx)
      rw [hxi, hi] at hget
      exact Prod.ext (Option.some.inj hget).symm hxi
    rw [extractedMentions, mem_mentionsFrom_iff (keptChars_increasing content) (hat ▸ hx), OpensKept]
    simp only [hkept, true_and]
  · refine ⟨fun h => absurd (List.mem_map_of_mem (mentionsFrom_position h)) hkept, fun h => absurd h.1.1 hkept⟩

theorem getElem?_of_segmented {content : List Char} {m : Nat × List Char} (h : m ∈ segmentedMentions content) :
    content[m.1]? = some '@' :=
  List.mem_zipIdx_iff_getElem?.mp (mentionsFrom_position (List.mem_filter.mp h).1)

theorem getElem?_of_extracted {content : List Char} {m : Nat × List Char} (h : m ∈ extractedMentions content) :
    content[m.1]? = some '@' :=
  List.mem_zipIdx_iff_getElem?.mp ((keptChars_sublist content).subset (mentionsFrom_position h))

/-- At an undisturbed position one resolver sees a mention exactly when the other does. -/
theorem undisturbed_iff {content : List Char} {i : Nat} (hi : content[i]? = some '@') (hu : Undisturbed content i)
    (name : List Char) : (i, name) ∈ segmentedMentions content ↔ (i, name) ∈ extractedMentions content := by
  rw [mem_segmentedMentions hi, mem_extractedMentions hi, ← hu.opens]
  constructor
  · rintro ⟨ho, hname⟩
    exact ⟨ho, (nameAt_undisturbed hu ho).trans hname⟩
  · rintro ⟨ho, hname⟩
    exact ⟨ho, (nameAt_undisturbed hu ho).symm.trans hname⟩

/-! ### What the resolvers return -/

variable (toLowerCase : List Char → List Char)

theorem resolve_none {participants : List MentionParticipant} (h : ¬ participants.any hasName = true) (token : List Char) :
    resolve toLowerCase participants token = none := by
  refine List.find?_eq_none.mpr fun p hp hfound => ?_
  obtain ⟨name, hname, hmatch⟩ := (Option.any_eq_true _ _).mp hfound
  refine h (List.any_eq_true.mpr ⟨p, List.mem_reverse.mp hp, ?_⟩)
  rw [Bool.and_eq_true] at hmatch
  exact (Option.any_eq_true _ _).mpr ⟨name, hname, hmatch.1⟩

/-- The agents `extractMentions` returns are those its mentions name, apart from an empty id. -/
theorem mem_extractMentions (content : List Char) (participants : List MentionParticipant) (agentId : List Char) :
    agentId ∈ extractMentions toLowerCase content participants ↔
      agentId ≠ [] ∧ Names toLowerCase participants (extractedMentions content) agentId := by
  have hnames : (matchMentions (stripCode content)).map (·.2) = (extractedMentions content).map (·.2) := by
    refine mentionsFrom_names none ?_
    rw [List.zipIdx_map_fst]
    exact (keptChars_chars content).symm
  unfold extractMentions Names
  split
  · rw [List.mem_eraseDups, List.mem_filter, List.mem_filterMap]
    have hmove : ∀ l : List (Nat × List Char),
        (∃ m ∈ l, (resolve toLowerCase participants m.2).map (·.agentId) = some agentId) ↔
          ∃ name ∈ l.map (·.2), (resolve toLowerCase participants name).map (·.agentId) = some agentId := by
      intro l
      constructor
      · rintro ⟨m, hm, hname⟩
        exact ⟨m.2, List.mem_map_of_mem hm, hname⟩
      · rintro ⟨name, hname, hid⟩
        obtain ⟨m, hm, rfl⟩ := List.mem_map.mp hname
        exact ⟨m, hm, hid⟩
    rw [hmove, hmove, hnames, and_comm, decide_eq_true_eq]
  · rename_i hnone
    simp [resolve_none toLowerCase hnone]

/-- The chips of the segments from a cursor on. -/
theorem mem_segmentsFrom (content : List Char) (participants : List MentionParticipant) (skipRanges : List (Nat × Nat))
    (cursor : Nat) (mentions : List (Nat × List Char)) (agentId : List Char) :
    agentId ∈ mentionedAgents (segmentsFrom toLowerCase content participants skipRanges cursor mentions) ↔
      Names toLowerCase participants (mentions.filter fun m => ! isInCodeRange m.1 skipRanges) agentId := by
  induction mentions generalizing cursor with
  | nil =>
    unfold segmentsFrom
    split <;> simp [mentionedAgents, Names]
  | cons m rest ih =>
    obtain ⟨index, token⟩ := m
    unfold segmentsFrom
    split
    · rename_i hcode
      rw [ih, List.filter_cons_of_neg (by simp [hcode])]
    · rename_i hcode
      rw [List.filter_cons_of_pos (by simpa using hcode)]
      split
      · rename_i hnone
        rw [ih]
        simp [Names, hnone]
      · rename_i p hp
        have hchips : ∀ before : List MentionSegment, mentionedAgents before = [] → ∀ value name after,
            mentionedAgents (before ++ .mention value name p.agentId :: after) = p.agentId :: mentionedAgents after := by
          intro before hbefore value name after
          simp only [mentionedAgents, List.filterMap_append] at hbefore ⊢
          rw [hbefore]
          rfl
        rw [hchips _ (by split <;> rfl), List.mem_cons, ih]
        simp only [Names, List.mem_cons, exists_eq_or_imp, hp, Option.map_some, Option.some.injEq]
        rw [eq_comm]

/-- The agents of the chips are those that the mentions outside code name. -/
theorem mem_segmentMentions (content : List Char) (participants : List MentionParticipant) (agentId : List Char) :
    agentId ∈ mentionedAgents (segmentMentions toLowerCase content participants) ↔
      Names toLowerCase participants (segmentedMentions content) agentId := by
  unfold segmentMentions
  split
  · subst_vars
    simp [mentionedAgents, Names, segmentedMentions, matchMentions, mentionsFrom]
  · split
    · exact mem_segmentsFrom toLowerCase content participants _ 0 _ agentId
    · rename_i hnone
      simp [mentionedAgents, Names, resolve_none toLowerCase hnone]

end MentionsAux

open MentionsAux

/-! ## When the resolvers agree -/

/-- Where every `@` that concerns a participant is undisturbed, and none outside code names a participant without an id, the
composer chips exactly the agents that the server routes to. -/
theorem mention_resolvers_agree_of_undisturbed (toLowerCase : List Char → List Char) {content : List Char}
    {participants : List MentionParticipant}
    (hundisturbed : ∀ i, content[i]? = some '@' → Concerns toLowerCase participants content i → Undisturbed content i)
    (hid : ∀ i, content[i]? = some '@' → Opens content i →
      ∀ p, (nameAt (content.drop (i + 1))).bind (resolve toLowerCase participants) = some p → p.agentId ≠ [])
    (agentId : List Char) :
    agentId ∈ mentionedAgents (segmentMentions toLowerCase content participants) ↔
      agentId ∈ extractMentions toLowerCase content participants := by
  rw [mem_segmentMentions, mem_extractMentions]
  constructor
  · rintro ⟨⟨i, name⟩, hm, hagent⟩
    have hi : content[i]? = some '@' := getElem?_of_segmented hm
    obtain ⟨ho, hname⟩ := (mem_segmentedMentions hi name).mp hm
    obtain ⟨p, hp, rfl⟩ := Option.map_eq_some_iff.mp hagent
    have hresolved : (nameAt (content.drop (i + 1))).bind (resolve toLowerCase participants) = some p := by
      rw [hname]
      exact hp
    refine ⟨hid i hi ho p hresolved, (i, name), ?_, hagent⟩
    exact (undisturbed_iff hi (hundisturbed i hi (Or.inl ⟨ho, by rw [hresolved]; rfl⟩)) name).mp hm
  · rintro ⟨_, ⟨i, name⟩, hm, hagent⟩
    have hi : content[i]? = some '@' := getElem?_of_extracted hm
    obtain ⟨ho, hname⟩ := (mem_extractedMentions hi name).mp hm
    obtain ⟨p, hp, _⟩ := Option.map_eq_some_iff.mp hagent
    have hconcerns : Concerns toLowerCase participants content i := by
      refine Or.inr ⟨ho, ?_⟩
      rw [hname, Option.bind_some, hp]
      rfl
    exact ⟨(i, name), (undisturbed_iff hi (hundisturbed i hi hconcerns) name).mpr hm, hagent⟩

namespace MentionsExample

/-- Alice. -/
def alice : MentionParticipant :=
  { agentId := "agent-alice".toList, name := some "alice".toList }

/-- A mention behind a code span, with a blank between them. -/
def mentionBehindSpan : List Char := "ask `x` @alice, `@alice`".toList

/-- The mention behind the span is undisturbed, and the one inside a span is in code and deleted. -/
theorem mention_resolvers_agree_behind_span :
    extractMentions id mentionBehindSpan [alice] = ["agent-alice".toList] ∧
      ∀ agentId, agentId ∈ mentionedAgents (segmentMentions id mentionBehindSpan [alice]) ↔
        agentId ∈ extractMentions id mentionBehindSpan [alice] := by
  have hat : ∀ i, mentionBehindSpan[i]? = some '@' → i = 8 ∨ i = 17 := by
    intro i hi
    obtain ⟨hlt, _⟩ := List.getElem?_eq_some_iff.mp hi
    have hall : ∀ i < mentionBehindSpan.length, mentionBehindSpan[i]? = some '@' → i = 8 ∨ i = 17 := by decide
    exact hall i hlt hi
  refine ⟨by decide, mention_resolvers_agree_of_undisturbed id (fun i hi _ => ?_) fun i hi _ p hp => ?_⟩
  · rcases hat i hi with rfl | rfl <;> exact ⟨by decide, by decide, by decide, by decide⟩
  · obtain ⟨name, _, hresolved⟩ := Option.bind_eq_some_iff.mp hp
    have hp : p = alice := List.mem_singleton.mp (List.mem_reverse.mp (List.mem_of_find?_eq_some hresolved))
    rw [hp]
    decide

/-- A code span between a letter and a mention: the mention is a chip, but once the span is deleted the letter precedes it. -/
theorem mention_resolvers_agree_false :
    ¬ ∀ agentId, agentId ∈ mentionedAgents (segmentMentions id "a\x60x\x60@alice".toList [alice]) ↔
      agentId ∈ extractMentions id "a\x60x\x60@alice".toList [alice] := by
  intro hagree
  have hchip : mentionedAgents (segmentMentions id "a\x60x\x60@alice".toList [alice]) = ["agent-alice".toList] := by decide
  have hroute : extractMentions id "a\x60x\x60@alice".toList [alice] = [] := by decide
  have hmem := (hagree "agent-alice".toList).mp (by rw [hchip]; exact List.mem_singleton_self _)
  rw [hroute] at hmem
  exact absurd hmem List.not_mem_nil

end MentionsExample

end FirstTree
