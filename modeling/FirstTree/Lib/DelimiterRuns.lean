import FirstTree.Lib.Scan

/-!
# Runs of a delimiter

A text in which runs of one character delimit what stands between them, such as the backticks of a code span. A run takes every
delimiter there is at its place, and a span goes from a run to the first later run of the same length. `pairs` is what a search
for the opening delimiters as a substring makes of the runs of a text: a run is closed by the first later run that is at least as
long, and what is left of that one opens again. A pair of it is a span exactly when it is balanced.
-/

namespace DelimiterRuns

variable {β : Type*}

/-- A run of `n` delimiters at a position: there is none before it and none after it. -/
def IsRun (c : β) (l : List β) (i n : Nat) : Prop :=
  0 < n ∧ ∃ before after, l = before ++ (List.replicate n c ++ after) ∧ before.length = i ∧ before.getLast? ≠ some c ∧
    after.head? ≠ some c

/-- From a run to the end of the first later run of the same length. -/
def IsSpan (c : β) (l : List β) (start stop : Nat) : Prop :=
  ∃ n i, IsRun c l start n ∧ IsRun c l i n ∧ start + n ≤ i ∧ stop = i + n ∧ ∀ j, start + n ≤ j → j < i → ¬ IsRun c l j n

/-- A pair of an opening and a closing delimiter, and whether both are runs of the same length. -/
structure Pair where
  start : Nat
  stop : Nat
  balanced : Bool
  deriving DecidableEq

/-- The pairs of the runs of a text, by position and length, when the first is whole or is what was left of a run. -/
def pairs (whole : Bool) : List (Nat × Nat) → List Pair
  | [] => []
  | (i, n) :: rest =>
    match hclose : rest.dropWhile (·.2 < n) with
    | [] => pairs true rest
    | (j, m) :: later =>
      have : later.length < rest.length := by
        have hle := (List.dropWhile_sublist (·.2 < n) (l := rest)).length_le
        rw [hclose, List.length_cons] at hle
        exact hle
      ⟨i, j + n, whole && m = n⟩ :: if m = n then pairs true later else pairs false ((j + n, m - n) :: later)
termination_by runs => runs.length

theorem pairs_unclosed {whole : Bool} {i n : Nat} {rest : List (Nat × Nat)} (h : rest.dropWhile (·.2 < n) = []) :
    pairs whole ((i, n) :: rest) = pairs true rest := by
  rw [pairs]
  split
  · rfl
  · rename_i hclose
    rw [h] at hclose
    cases hclose

theorem pairs_closed {whole : Bool} {i n j m : Nat} {rest later : List (Nat × Nat)}
    (h : rest.dropWhile (·.2 < n) = (j, m) :: later) :
    pairs whole ((i, n) :: rest) =
      ⟨i, j + n, whole && m = n⟩ :: if m = n then pairs true later else pairs false ((j + n, m - n) :: later) := by
  rw [pairs]
  split
  · rename_i hclose
    rw [h] at hclose
    cases hclose
  · rename_i hclose
    rw [h] at hclose
    cases hclose
    rfl

/-! ## The runs of a text -/

section

variable [DecidableEq β]

/-- The run at the head of a text. -/
def runAt (c : β) (i : Nat) (l : List β) : Option (Nat × Nat) × Nat :=
  match (l.takeWhile (· = c)).length with
  | 0 => (none, 1)
  | n + 1 => (some (i, n + 1), n + 1)

/-- The runs of a text, by position and length. -/
def runs (c : β) (i : Nat) (l : List β) : List (Nat × Nat) := Scan.collect (runAt c) i 0 l

/-- A character that is no delimiter is passed over. -/
theorem runs_cons_ne {c d : β} (h : d ≠ c) (i : Nat) (l : List β) : runs c i (d :: l) = runs c (i + 1) l := by
  have hrun : runAt c i (d :: l) = (none, 0 + 1) := by
    unfold runAt
    rw [List.takeWhile_cons_of_neg (by simpa using h)]
    rfl
  exact Scan.collect_step hrun

/-- A run is found. -/
theorem runs_run {c : β} {l : List β} (h : l.head? ≠ some c) (i n : Nat) :
    runs c i (List.replicate (n + 1) c ++ l) = (i, n + 1) :: runs c (i + (n + 1)) l := by
  have hrun : runAt c i (List.replicate (n + 1) c ++ l) = (some (i, n + 1), n + 1) := by
    unfold runAt
    rw [Scan.takeWhile_run h, List.length_replicate]
  rw [List.replicate_succ, List.cons_append] at hrun ⊢
  rw [runs, Scan.collect_step hrun, List.drop_left' List.length_replicate]
  rfl

/-- A text is empty, or starts with a character that is no delimiter, or with a run. -/
theorem run_cases (c : β) (l : List β) :
    l = [] ∨ (∃ d rest, d ≠ c ∧ l = d :: rest) ∨ ∃ n rest, rest.head? ≠ some c ∧ l = List.replicate (n + 1) c ++ rest := by
  cases l with
  | nil => exact .inl rfl
  | cons d rest =>
    by_cases hd : d = c
    · have hsplit := Scan.run_split c (d :: rest)
      have htake : (d :: rest).takeWhile (· = c) = d :: rest.takeWhile (· = c) :=
        List.takeWhile_cons_of_pos (by simpa using hd)
      rw [htake, List.length_cons] at hsplit
      exact .inr (.inr ⟨_, _, Scan.head_dropWhile_run c _, hsplit.symm⟩)
    · exact .inr (.inl ⟨d, rest, hd, rfl⟩)

/-! ## Spans -/

/-- Two texts that start with a run start with the same run. -/
theorem run_unique {c : β} {n n' : Nat} {l l' : List β} (h : l.head? ≠ some c) (h' : l'.head? ≠ some c)
    (heq : List.replicate n c ++ l = List.replicate n' c ++ l') : n = n' := by
  have hrun := congrArg (List.takeWhile (· = c)) heq
  rw [Scan.takeWhile_run h, Scan.takeWhile_run h'] at hrun
  simpa using congrArg List.length hrun

/-- An opening delimiter and the first occurrence of as many are a span when the one has no delimiter before it and the other none
after it. -/
theorem isSpan_iff {c : β} {n : Nat} {before mid after : List β} (hn : 0 < n)
    (hmid : (mid ++ (List.replicate n c ++ after)).head? ≠ some c)
    (hfirst : ∀ k < mid.length, ¬ List.replicate n c <+: (mid ++ (List.replicate n c ++ after)).drop k) :
    IsSpan c (before ++ (List.replicate n c ++ (mid ++ (List.replicate n c ++ after)))) before.length
        (before.length + (n + mid.length + n)) ↔
      before.getLast? ≠ some c ∧ after.head? ≠ some c := by
  have hsplit : before ++ (List.replicate n c ++ (mid ++ (List.replicate n c ++ after))) =
      (before ++ (List.replicate n c ++ mid)) ++ (List.replicate n c ++ after) := by simp
  have hlength : (before ++ (List.replicate n c ++ mid)).length = before.length + (n + mid.length) := by simp
  constructor
  · rintro ⟨n', i, ⟨_, b, a, hopen, hb, hbefore, ha⟩, ⟨_, b', a', hclose, hb', _, ha'⟩, _, hstop, _⟩
    obtain ⟨rfl, htail⟩ := List.append_inj hopen hb.symm
    obtain rfl := run_unique hmid ha htail
    refine ⟨hbefore, ?_⟩
    rw [hsplit] at hclose
    obtain ⟨_, htail'⟩ := List.append_inj hclose (by omega)
    rw [List.append_cancel_left htail']
    exact ha'
  · rintro ⟨hbefore, hafter⟩
    refine ⟨n, before.length + (n + mid.length), ⟨hn, before, _, rfl, rfl, hbefore, hmid⟩,
      ⟨hn, _, after, hsplit, hlength, ?_, hafter⟩, by omega, by omega, ?_⟩
    · -- a delimiter at the end of what stands between would be where the first occurrence starts
      intro hlast
      rcases List.eq_nil_or_concat mid with rfl | ⟨mid, d, rfl⟩
      · refine hmid ?_
        rw [List.nil_append, List.head?_append_of_ne_nil _ (by simp; omega), List.head?_replicate, if_neg (by omega)]
      · have hd : d = c := by simpa using hlast
        subst hd
        refine hfirst mid.length (by simp) ⟨d :: after, ?_⟩
        rw [List.concat_eq_append, List.append_assoc, List.drop_left, List.singleton_append, ← List.cons_append,
          ← List.replicate_succ, List.replicate_succ', List.append_assoc, List.singleton_append]
    · rintro j hj hlt ⟨_, b, a, hrun, hb, _, _⟩
      have hdrop := congrArg (List.drop j) hrun
      rw [← List.append_assoc before, List.drop_append, List.drop_eq_nil_of_le (by simpa using hj), List.nil_append, ← hb,
        List.drop_left] at hdrop
      exact hfirst (b.length - (before ++ List.replicate n c).length) (by simp; omega) ⟨a, hdrop.symm⟩

end

end DelimiterRuns
