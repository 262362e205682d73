import FirstTree.Lib.DelimiterRuns
import FirstTree.Shared.DocLinkScan

/-!
# The code spans of a line

`findInlineCodeSpans` looks for the closing backticks as a substring, so what it finds are the pairs of the runs of backticks: the
closing one is in the first later run that is long enough.
-/

namespace FirstTree

open DocLinkScan DelimiterRuns

/-- CommonMark's code span, within a line: from a backtick string to the first later one of the same length. -/
def IsCodeSpan (line : List UInt16) (start stop : Nat) : Prop := IsSpan tick line start stop

/-- The backtick strings of a line, paired as the scanner pairs them. -/
def backtickPairs (line : List UInt16) : List Pair := pairs true (runs tick 0 line)

namespace CodeSpansAux

/-! ## The closing backticks -/

/-- The first occurrence. -/
theorem indexOf_spec {needle l : List UInt16} {k : Nat} (h : indexOf needle l = some k) :
    needle <+: l.drop k ∧ ∀ j < k, ¬ needle <+: l.drop j := by
  induction l generalizing k with
  | nil =>
    unfold indexOf at h
    split at h
    · rename_i hnil
      obtain rfl := Option.some.inj h
      subst hnil
      exact ⟨List.nil_prefix, fun j hj => absurd hj (Nat.not_lt_zero j)⟩
    · cases h
  | cons c l ih =>
    unfold indexOf at h
    split at h
    · rename_i hprefix
      obtain rfl := Option.some.inj h
      exact ⟨List.isPrefixOf_iff_prefix.mp hprefix, fun j hj => absurd hj (Nat.not_lt_zero j)⟩
    · rename_i hprefix
      obtain ⟨k', hk', rfl⟩ := Option.map_eq_some_iff.mp h
      obtain ⟨hfound, hfirst⟩ := ih hk'
      refine ⟨hfound, ?_⟩
      intro j hj
      cases j with
      | zero => exact fun hp => hprefix (List.isPrefixOf_iff_prefix.mpr hp)
      | succ j => exact hfirst j (Nat.lt_of_succ_lt_succ hj)

/-- Backticks do not start at another character. -/
theorem indexOf_cons_ne {d : UInt16} (hd : d ≠ tick) (n : Nat) (l : List UInt16) :
    indexOf (List.replicate (n + 1) tick) (d :: l) = (indexOf (List.replicate (n + 1) tick) l).map (· + 1) := by
  have hnot : (List.replicate (n + 1) tick).isPrefixOf (d :: l) = false := by
    rw [List.replicate_succ, List.isPrefixOf_cons_cons, Bool.and_eq_false_iff]
    exact .inl (by simpa using fun h : tick = d => hd h.symm)
  rw [indexOf, hnot]
  rfl

/-- A run that is long enough is where they start, and a shorter one is passed over. -/
theorem indexOf_run {l : List UInt16} (hl : l.head? ≠ some tick) (n m : Nat) :
    indexOf (List.replicate (n + 1) tick) (List.replicate m tick ++ l) =
      if n + 1 ≤ m then some 0 else (indexOf (List.replicate (n + 1) tick) l).map (· + m) := by
  induction m with
  | zero =>
    rw [if_neg (Nat.not_succ_le_zero n), List.replicate_zero, List.nil_append]
    simp
  | succ m ih =>
    have hcons : List.replicate (m + 1) tick ++ l = tick :: (List.replicate m tick ++ l) := rfl
    rw [hcons, indexOf]
    by_cases hle : n + 1 ≤ m + 1
    · have hprefix : (List.replicate (n + 1) tick).isPrefixOf (tick :: (List.replicate m tick ++ l)) = true := by
        rw [List.isPrefixOf_iff_prefix, ← List.cons_append, ← List.replicate_succ]
        exact (List.prefix_replicate_iff.mpr ⟨by simpa using hle, by simp⟩).trans (List.prefix_append _ _)
      rw [if_pos hle, hprefix]
      rfl
    · have hprefix : (List.replicate (n + 1) tick).isPrefixOf (tick :: (List.replicate m tick ++ l)) = false := by
        rw [Bool.eq_false_iff]
        intro h
        obtain ⟨after, hafter⟩ := List.isPrefixOf_iff_prefix.mp h
        rw [← List.cons_append, ← List.replicate_succ] at hafter
        have htake := congrArg (List.takeWhile (· = tick)) hafter
        rw [Scan.takeWhile_run hl, List.takeWhile_append_of_pos (by simp)] at htake
        have hlength := congrArg List.length htake
        simp only [List.length_append, List.length_replicate] at hlength
        omega
      rw [if_neg hle, hprefix, if_neg Bool.false_ne_true, ih, if_neg (by omega), Option.map_map]
      congr 1

/-- Where the closing backticks are found, in terms of the runs: in the first one that is long enough. -/
theorem indexOf_runs (n i : Nat) (l : List UInt16) :
    indexOf (List.replicate (n + 1) tick) l = none ∧ (runs tick i l).dropWhile (·.2 < n + 1) = [] ∨
      ∃ mid m rest, n + 1 ≤ m ∧ rest.head? ≠ some tick ∧ l = mid ++ (List.replicate m tick ++ rest) ∧
        indexOf (List.replicate (n + 1) tick) l = some mid.length ∧
          (runs tick i l).dropWhile (·.2 < n + 1) = (i + mid.length, m) :: runs tick (i + mid.length + m) rest := by
  induction hlen : l.length using Nat.strong_induction_on generalizing i l with
  | _ len ih =>
    rcases run_cases tick l with rfl | ⟨d, rest, hd, rfl⟩ | ⟨m, rest, hrest, rfl⟩
    · exact .inl ⟨rfl, rfl⟩
    · rw [indexOf_cons_ne hd, runs_cons_ne hd]
      rcases ih rest.length (by simp [← hlen]) (i + 1) rest rfl with ⟨hnone, hruns⟩ | ⟨mid, m, rest', hm, hhead, rfl, hsome, hruns⟩
      · exact .inl ⟨by rw [hnone]; rfl, hruns⟩
      · refine .inr ⟨d :: mid, m, rest', hm, hhead, rfl, by rw [hsome]; rfl, ?_⟩
        rw [hruns, List.length_cons, Nat.add_assoc i 1, Nat.add_comm 1]
    · rw [indexOf_run hrest, runs_run hrest]
      by_cases hm : n + 1 ≤ m + 1
      · refine .inr ⟨[], m + 1, rest, hm, hrest, rfl, if_pos hm, ?_⟩
        exact List.dropWhile_cons_of_neg (by simpa using hm)
      · rw [if_neg hm, List.dropWhile_cons_of_pos (by simpa using hm)]
        have hlt : rest.length < len := by
          rw [← hlen, List.length_append, List.length_replicate]
          omega
        rcases ih rest.length hlt (i + (m + 1)) rest rfl with ⟨hnone, hruns⟩ | ⟨mid, m', rest', hm', hhead, rfl, hsome, hruns⟩
        · exact .inl ⟨by rw [hnone]; rfl, hruns⟩
        · refine .inr ⟨List.replicate (m + 1) tick ++ mid, m', rest', hm', hhead, by simp, ?_, ?_⟩
          · rw [hsome, Option.map_some, List.length_append, List.length_replicate, Nat.add_comm]
          · rw [hruns, List.length_append, List.length_replicate, Nat.add_assoc i]

/-! ## The loop -/

/-- Another character is passed over. -/
theorem codeSpans_cons_ne {d : UInt16} (hd : d ≠ tick) (i : Nat) (l : List UInt16) :
    Scan.collect codeSpanAt i 0 (d :: l) = Scan.collect codeSpanAt (i + 1) 0 l := by
  have hstep : codeSpanAt i (d :: l) = (none, 0 + 1) := by
    unfold codeSpanAt
    rw [List.takeWhile_cons_of_neg (by simpa using hd)]
    rfl
  exact Scan.collect_step hstep

/-- A run that nothing closes is passed over. -/
theorem codeSpans_unclosed {l : List UInt16} {n : Nat} (hl : l.head? ≠ some tick)
    (hclose : indexOf (List.replicate (n + 1) tick) l = none) (i : Nat) :
    Scan.collect codeSpanAt i 0 (List.replicate (n + 1) tick ++ l) = Scan.collect codeSpanAt (i + (n + 1)) 0 l := by
  have hstep : codeSpanAt i (List.replicate (n + 1) tick ++ l) = (none, n + 1) := by
    unfold codeSpanAt
    rw [Scan.takeWhile_run hl, Scan.dropWhile_run hl, List.length_replicate]
    dsimp only
    rw [hclose]
  rw [List.replicate_succ, List.cons_append] at hstep ⊢
  rw [Scan.collect_step hstep, List.drop_left' List.length_replicate]
  rfl

/-- A run that is closed is a span, and the loop goes on after it. -/
theorem codeSpans_closed {mid l : List UInt16} {n : Nat} (hl : (mid ++ (List.replicate (n + 1) tick ++ l)).head? ≠ some tick)
    (hclose : indexOf (List.replicate (n + 1) tick) (mid ++ (List.replicate (n + 1) tick ++ l)) = some mid.length) (i : Nat) :
    Scan.collect codeSpanAt i 0 (List.replicate (n + 1) tick ++ (mid ++ (List.replicate (n + 1) tick ++ l))) =
      (i, i + (n + 1 + mid.length + (n + 1))) :: Scan.collect codeSpanAt (i + (n + 1 + mid.length + (n + 1))) 0 l := by
  have hstep : codeSpanAt i (List.replicate (n + 1) tick ++ (mid ++ (List.replicate (n + 1) tick ++ l))) =
      (some (i, i + (n + 1 + mid.length + (n + 1))), n + 1 + mid.length + n + 1) := by
    unfold codeSpanAt
    rw [Scan.takeWhile_run hl, Scan.dropWhile_run hl, List.length_replicate]
    dsimp only
    rw [hclose]
    rfl
  have hcons : List.replicate (n + 1) tick ++ (mid ++ (List.replicate (n + 1) tick ++ l)) =
      tick :: ((List.replicate n tick ++ (mid ++ List.replicate (n + 1) tick)) ++ l) := by
    rw [List.replicate_succ, List.cons_append, List.append_assoc, List.append_assoc]
  rw [hcons] at hstep ⊢
  rw [Scan.collect_step hstep, List.drop_left' (by simp; omega)]
  rfl

/-- What is left of a closing run is the run that is read next, if there is any. -/
theorem pairs_leftover {l : List UInt16} (hl : l.head? ≠ some tick) (i n x : Nat) :
    (if n + x = n then pairs true (runs tick (i + x) l) else pairs false ((i, n + x - n) :: runs tick (i + x) l)) =
      pairs (decide (x = 0)) (runs tick i (List.replicate x tick ++ l)) := by
  cases x with
  | zero => simp
  | succ x =>
    rw [if_neg (by omega), runs_run hl, Nat.add_sub_cancel_left]
    rfl

/-- What is left of a closing run starts with a backtick, if there is any. -/
theorem head_leftover {l : List UInt16} (hl : l.head? ≠ some tick) (x : Nat) :
    (List.replicate x tick ++ l).head? = some tick ↔ x ≠ 0 := by
  cases x with
  | zero => simpa using hl
  | succ x => simp [List.replicate_succ]

/-- What `findInlineCodeSpans` finds are the pairs of the runs, and a pair is a code span exactly when it is balanced. The part of
the line that is still to be read starts with a whole run, or with what is left of one. -/
theorem codeSpans_eq_pairs (before l : List UInt16) (whole : Bool)
    (hwhole : whole = true ↔ ¬ (l.head? = some tick ∧ before.getLast? = some tick)) :
    Scan.collect codeSpanAt before.length 0 l = (pairs whole (runs tick before.length l)).map (fun q => (q.start, q.stop)) ∧
      ∀ q ∈ pairs whole (runs tick before.length l), q.balanced = true ↔ IsCodeSpan (before ++ l) q.start q.stop := by
  induction hlen : l.length using Nat.strong_induction_on generalizing before l whole with
  | _ len ih =>
    rcases run_cases tick l with rfl | ⟨d, rest, hd, rfl⟩ | ⟨n, rest, hrest, rfl⟩
    · rw [runs, Scan.collect, Scan.collect, pairs]
      exact ⟨rfl, fun q hq => absurd hq List.not_mem_nil⟩
    · have hwhole' : whole = true := hwhole.mpr fun h => hd (Option.some.inj h.1)
      have hnext : true = true ↔ ¬ (rest.head? = some tick ∧ (before ++ [d]).getLast? = some tick) := by simp [hd]
      have hlater := ih rest.length (by simp [← hlen]) (before ++ [d]) rest true hnext rfl
      rw [codeSpans_cons_ne hd, runs_cons_ne hd, hwhole']
      simpa using hlater
    · rw [runs_run hrest]
      have hlt : rest.length < len := by
        rw [← hlen, List.length_append, List.length_replicate]
        omega
      rcases indexOf_runs n (before.length + (n + 1)) rest with ⟨hnone, hruns⟩ | ⟨mid, m, rest', hm, hhead, rfl, hsome, hruns⟩
      · have hnext : true = true ↔ ¬ (rest.head? = some tick ∧ (before ++ List.replicate (n + 1) tick).getLast? = some tick) := by
          simp [hrest]
        have hlater := ih rest.length hlt (before ++ List.replicate (n + 1) tick) rest true hnext rfl
        rw [codeSpans_unclosed hrest hnone, pairs_unclosed hruns]
        simpa using hlater
      · obtain ⟨x, rfl⟩ := Nat.exists_eq_add_of_le hm
        have hclosing : List.replicate (n + 1 + x) tick ++ rest' = List.replicate (n + 1) tick ++
            (List.replicate x tick ++ rest') := by
          rw [← List.append_assoc, List.replicate_append_replicate]
        rw [hclosing] at hrest hsome hlt hruns ⊢
        have hnext : decide (x = 0) = true ↔ ¬ ((List.replicate x tick ++ rest').head? = some tick ∧
            (before ++ (List.replicate (n + 1) tick ++ (mid ++ List.replicate (n + 1) tick))).getLast? = some tick) := by
          rw [head_leftover hhead]
          simp [List.getLast?_replicate]
        have hlater :=
          ih (List.replicate x tick ++ rest').length (by simp only [List.length_append, List.length_replicate] at hlt ⊢; omega)
          (before ++ (List.replicate (n + 1) tick ++ (mid ++ List.replicate (n + 1) tick))) _ _ hnext rfl
        have hlength : (before ++ (List.replicate (n + 1) tick ++ (mid ++ List.replicate (n + 1) tick))).length =
            before.length + (n + 1 + mid.length + (n + 1)) := by
          simp only [List.length_append, List.length_replicate]
          omega
        have hstop : before.length + (n + 1) + mid.length + (n + 1) = before.length + (n + 1 + mid.length + (n + 1)) := by omega
        have hspan : IsCodeSpan (before ++ (List.replicate (n + 1) tick ++ (mid ++ (List.replicate (n + 1) tick ++
            (List.replicate x tick ++ rest'))))) before.length (before.length + (n + 1 + mid.length + (n + 1))) ↔ _ :=
          isSpan_iff (Nat.succ_pos n) hrest (indexOf_spec hsome).2
        rw [hlength] at hlater
        rw [codeSpans_closed hrest hsome, pairs_closed hruns, ← Nat.add_assoc _ (n + 1) x, pairs_leftover hhead, hstop]
        obtain ⟨hcollect, hbalanced⟩ := hlater
        refine ⟨by rw [hcollect]; rfl, fun q hq => ?_⟩
        rcases List.mem_cons.mp hq with rfl | hq
        · have hopen : whole = true ↔ before.getLast? ≠ some tick := by
            rw [hwhole, List.replicate_succ, List.cons_append, List.head?_cons]
            simp
          have hclose : decide (n + 1 + x = n + 1) = true ↔ (List.replicate x tick ++ rest').head? ≠ some tick := by
            rw [decide_eq_true_eq, Ne, head_leftover hhead]
            omega
          rw [hspan, Bool.and_eq_true, hopen, hclose]
        · rw [hbalanced q hq]
          simp

/-- The code spans of a line, as `findInlineCodeSpans` finds them. -/
theorem findInlineCodeSpans_eq (line : List UInt16) :
    findInlineCodeSpans line = (backtickPairs line).map fun q => (q.start, q.stop) :=
  (codeSpans_eq_pairs [] line true (by simp)).1

/-- A pair of backtick strings is a code span exactly when it is balanced. -/
theorem balanced_iff {line : List UInt16} {q : Pair} (hq : q ∈ backtickPairs line) :
    q.balanced = true ↔ IsCodeSpan line q.start q.stop :=
  (codeSpans_eq_pairs [] line true (by simp)).2 q hq

/-- A range that the loop finds at a place of the text. -/
theorem codeSpanAt_eq_some {i m : Nat} {l : List UInt16} {r : Nat × Nat} (h : codeSpanAt i l = (some r, m)) :
    ∃ n k, r = (i, i + (n + 1 + k + (n + 1))) ∧ m = n + 1 + k + (n + 1) ∧ l[n + 1 + k + n]? = some tick := by
  have hsplit := Scan.run_split tick l
  unfold codeSpanAt at h
  split at h
  · cases h
  · rename_i n hn
    split at h
    · cases h
    · rename_i k hk
      obtain ⟨hr, rfl⟩ := Prod.mk.inj h
      obtain rfl := Option.some.inj hr
      refine ⟨n, k, rfl, rfl, ?_⟩
      obtain ⟨after, hafter⟩ := (indexOf_spec hk).1
      have hget : (l.dropWhile (· = tick))[k + n]? = some tick := by
        rw [← List.getElem?_drop, ← hafter, List.getElem?_append_left (by simp), List.getElem?_replicate_of_lt (Nat.lt_succ_self n)]
      rw [← hsplit, hn, List.getElem?_append_right (by rw [List.length_replicate]; omega), List.length_replicate, ← hget]
      congr 1
      omega

/-- The ranges come one after the other. -/
theorem findInlineCodeSpans_ordered (line : List UInt16) : (findInlineCodeSpans line).Pairwise fun r r' => r.2 ≤ r'.1 := by
  refine (@Scan.collect_ordered UInt16 (Nat × Nat) codeSpanAt id ?_ 0 0 line).2
  intro i l r m h
  obtain ⟨n, k, rfl, rfl, _⟩ := codeSpanAt_eq_some h
  exact ⟨Nat.le_refl _, Nat.le_refl _⟩

/-- A range ends with a backtick. -/
theorem last_of_mem_findInlineCodeSpans {content : List UInt16} {r : Nat × Nat} (h : r ∈ findInlineCodeSpans content) :
    content[r.2 - 1]? = some tick := by
  obtain ⟨k, _, hk⟩ := Scan.mem_collect h
  obtain ⟨n, j, rfl, _, hlast⟩ := codeSpanAt_eq_some (Prod.ext hk rfl)
  rw [List.getElem?_drop] at hlast
  rw [← hlast]
  congr 1
  omega

end CodeSpansAux

end FirstTree
