import Mathlib.Data.List.Basic

/-!
# Regular expressions with backtracking

A pattern as a regular-expression engine with backtracking runs it: from a text it has a list of matches, the first choice first, and
the engine takes the first that lets the rest of the pattern match. A match keeps what it consumed, what its groups captured and what
is left. Quantifiers are greedy; a lookahead looks at what is left and consumes nothing.
-/

/-- A pattern over characters. -/
inductive Regex (α : Type*) where
  | empty
  | char (p : α → Bool)
  | atEnd
  | seq (r s : Regex α)
  | alt (r s : Regex α)
  | star (r : Regex α)
  | upTo (n : Nat) (r : Regex α)
  | group (index : Nat) (r : Regex α)
  | ahead (r : Regex α)
  | notAhead (r : Regex α)

namespace Regex

variable {α : Type*}

/-- A match of a pattern at the front of a text. -/
structure Match (α : Type*) where
  consumed : List α
  captures : List (Nat × List α)
  rest : List α
  deriving DecidableEq

/-- The match that consumes nothing. -/
def Match.nothing (s : List α) : Match α := ⟨[], [], s⟩

/-- A match and one of what it left. -/
def Match.next (m m' : Match α) : Match α := ⟨m.consumed ++ m'.consumed, m.captures ++ m'.captures, m'.rest⟩

/-- What a group captured, if it took part. -/
def Match.capture (m : Match α) (index : Nat) : Option (List α) := (m.captures.find? (·.1 == index)).map Prod.snd

/-- At most `n` matches one after another, as many as possible first. An iteration that consumes nothing is not taken. -/
def repeated (f : List α → List (Match α)) : Nat → List α → List (Match α)
  | 0, s => [.nothing s]
  | n + 1, s => ((f s).filter (fun m => !m.consumed.isEmpty)).flatMap (fun m => (repeated f n m.rest).map m.next) ++ [.nothing s]

/-- The matches at the front of a text, the first choice first. -/
def run : Regex α → List α → List (Match α)
  | empty, s => [.nothing s]
  | char _, [] => []
  | char p, c :: s => if p c then [⟨[c], [], s⟩] else []
  | atEnd, s => if s.isEmpty then [.nothing s] else []
  | seq r r', s => (r.run s).flatMap fun m => (r'.run m.rest).map m.next
  | alt r r', s => r.run s ++ r'.run s
  | star r, s => repeated r.run s.length s
  | upTo n r, s => repeated r.run n s
  | group index r, s => (r.run s).map fun m => { m with captures := m.captures ++ [(index, m.consumed)] }
  | ahead r, s => if (r.run s).isEmpty then [] else [.nothing s]
  | notAhead r, s => if (r.run s).isEmpty then [.nothing s] else []

/-- `exec` of a pattern that is anchored at the start. -/
def exec (r : Regex α) (s : List α) : Option (Match α) := (r.run s).head?

/-- `exec` of a pattern that may match anywhere: the leftmost match. -/
def search (r : Regex α) : List α → Option (Match α)
  | [] => r.exec []
  | c :: s => (r.exec (c :: s)).or (r.search s)

/-- A pattern that may be left out. -/
def opt (r : Regex α) : Regex α := alt r empty

/-- Patterns one after another. -/
def seqs (rs : List (Regex α)) : Regex α := rs.foldr seq empty

/-- The characters of a text, one after another. -/
def literal [DecidableEq α] (t : List α) : Regex α := seqs (t.map fun c => char (· == c))

/-! ## Matches -/

/-- A repetition is nothing, or one match that consumes and a repetition of what it left. -/
theorem mem_repeated_succ {f : List α → List (Match α)} {n : Nat} {s : List α} {m : Match α} :
    m ∈ repeated f (n + 1) s ↔
      (∃ m₁ ∈ f s, m₁.consumed ≠ [] ∧ ∃ m₂ ∈ repeated f n m₁.rest, m = m₁.next m₂) ∨ m = .nothing s := by
  simp only [repeated, List.mem_append, List.mem_flatMap, List.mem_filter, List.mem_map, List.mem_singleton, Bool.not_eq_true',
    List.isEmpty_eq_false_iff]
  constructor
  · rintro (⟨m₁, ⟨h₁, hne⟩, m₂, h₂, rfl⟩ | h)
    · exact .inl ⟨m₁, h₁, hne, m₂, h₂, rfl⟩
    · exact .inr h
  · rintro (⟨m₁, h₁, hne, m₂, h₂, rfl⟩ | h)
    · exact .inl ⟨m₁, ⟨h₁, hne⟩, m₂, h₂, rfl⟩
    · exact .inr h

/-- The matches of two patterns one after another. -/
theorem mem_run_seq {r r' : Regex α} {s : List α} {m : Match α} :
    m ∈ (seq r r').run s ↔ ∃ m₁ ∈ r.run s, ∃ m₂ ∈ r'.run m₁.rest, m = m₁.next m₂ := by
  simp only [run, List.mem_flatMap, List.mem_map]
  constructor
  · rintro ⟨m₁, h₁, m₂, h₂, rfl⟩
    exact ⟨m₁, h₁, m₂, h₂, rfl⟩
  · rintro ⟨m₁, h₁, m₂, h₂, rfl⟩
    exact ⟨m₁, h₁, m₂, h₂, rfl⟩

/-- The matches of one character. -/
theorem mem_run_char {p : α → Bool} {s : List α} {m : Match α} :
    m ∈ (char p).run s ↔ ∃ c rest, s = c :: rest ∧ p c = true ∧ m = ⟨[c], [], rest⟩ := by
  cases s with
  | nil => simp [run]
  | cons c s =>
    by_cases h : p c = true
    · simp [run, h]
    · simp [run, h]

/-- The matches of a group. -/
theorem mem_run_group {index : Nat} {r : Regex α} {s : List α} {m : Match α} :
    m ∈ (group index r).run s ↔ ∃ m₁ ∈ r.run s, m = { m₁ with captures := m₁.captures ++ [(index, m₁.consumed)] } := by
  simp only [run, List.mem_map]
  constructor
  · rintro ⟨m₁, h₁, rfl⟩
    exact ⟨m₁, h₁, rfl⟩
  · rintro ⟨m₁, h₁, rfl⟩
    exact ⟨m₁, h₁, rfl⟩

/-- A lookahead consumes nothing. -/
theorem eq_nothing_of_mem_ahead {r : Regex α} {s : List α} {m : Match α} (h : m ∈ (ahead r).run s) : m = .nothing s := by
  simp only [run] at h
  split at h
  · exact absurd h List.not_mem_nil
  · exact List.mem_singleton.1 h

/-! ## What every match keeps -/

/-- What every match of a repetition keeps, from what its body keeps. -/
theorem repeated_keeps {f : List α → List (Match α)} {P : List α → Match α → Prop} (hnothing : ∀ s, P s (.nothing s))
    (hnext : ∀ s m m', P s m → P m.rest m' → P s (m.next m')) (hf : ∀ s, ∀ m ∈ f s, P s m) (n : Nat) :
    ∀ s, ∀ m ∈ repeated f n s, P s m := by
  induction n with
  | zero =>
    intro s m hm
    obtain rfl := List.mem_singleton.1 hm
    exact hnothing s
  | succ n ih =>
    intro s m hm
    rcases mem_repeated_succ.1 hm with ⟨m₁, h₁, _, m₂, h₂, rfl⟩ | rfl
    · exact hnext s m₁ m₂ (hf s m₁ h₁) (ih m₁.rest m₂ h₂)
    · exact hnothing s

/-- A pattern consumes characters with one property only, and its groups have indices with another. -/
def Only (Q : α → Prop) (G : Nat → Prop) : Regex α → Prop
  | empty => True
  | char p => ∀ c, p c = true → Q c
  | atEnd => True
  | seq r s => r.Only Q G ∧ s.Only Q G
  | alt r s => r.Only Q G ∧ s.Only Q G
  | star r => r.Only Q G
  | upTo _ r => r.Only Q G
  | group index r => G index ∧ r.Only Q G
  | ahead _ => True
  | notAhead _ => True

/-- What every match of a pattern keeps: nothing, one character, two matches one after another, and a group keep it. -/
theorem run_keeps {Q : α → Prop} {G : Nat → Prop} {P : List α → Match α → Prop} (hnothing : ∀ s, P s (.nothing s))
    (hnext : ∀ s m m', P s m → P m.rest m' → P s (m.next m')) (hchar : ∀ c s, Q c → P (c :: s) ⟨[c], [], s⟩)
    (hgroup : ∀ s m index, G index → P s m → P s { m with captures := m.captures ++ [(index, m.consumed)] }) (r : Regex α)
    (hr : r.Only Q G) : ∀ s, ∀ m ∈ r.run s, P s m := by
  -- A test of what is left matches nothing, or not at all.
  have htest : ∀ (c : Prop) [Decidable c] (s : List α) (m : Match α), m ∈ (if c then [] else [.nothing s]) → P s m := by
    intro c _ s m hm
    split at hm
    · exact absurd hm List.not_mem_nil
    · obtain rfl := List.mem_singleton.1 hm
      exact hnothing s
  induction r with
  | empty =>
    intro s m hm
    obtain rfl := List.mem_singleton.1 hm
    exact hnothing s
  | char p =>
    intro s m hm
    obtain ⟨c, rest, rfl, hc, rfl⟩ := mem_run_char.1 hm
    exact hchar c rest (hr c hc)
  | atEnd =>
    intro s m hm
    refine htest (¬ s.isEmpty = true) s m ?_
    rwa [ite_not]
  | seq r r' ih ih' =>
    intro s m hm
    obtain ⟨m₁, h₁, m₂, h₂, rfl⟩ := mem_run_seq.1 hm
    exact hnext s m₁ m₂ (ih hr.1 s m₁ h₁) (ih' hr.2 m₁.rest m₂ h₂)
  | alt r r' ih ih' =>
    intro s m hm
    rcases List.mem_append.1 hm with hm | hm
    · exact ih hr.1 s m hm
    · exact ih' hr.2 s m hm
  | star r ih =>
    intro s m hm
    exact repeated_keeps hnothing hnext (ih hr) s.length s m hm
  | upTo n r ih =>
    intro s m hm
    exact repeated_keeps hnothing hnext (ih hr) n s m hm
  | group index r ih =>
    intro s m hm
    obtain ⟨m₁, h₁, rfl⟩ := mem_run_group.1 hm
    exact hgroup s m₁ index hr.1 (ih hr.2 s m₁ h₁)
  | ahead r ih =>
    intro s m hm
    exact htest ((r.run s).isEmpty = true) s m hm
  | notAhead r ih =>
    intro s m hm
    refine htest (¬ (r.run s).isEmpty = true) s m ?_
    rwa [ite_not]

/-- Every pattern consumes characters and has groups. -/
theorem only_true (r : Regex α) : r.Only (fun _ => True) fun _ => True := by
  induction r with
  | empty | atEnd | ahead | notAhead => trivial
  | char p => exact fun _ _ => trivial
  | seq r r' ih ih' | alt r r' ih ih' => exact ⟨ih, ih'⟩
  | star r ih | upTo n r ih => exact ih
  | group index r ih => exact ⟨trivial, ih⟩

/-- What is consumed and what is left are the text. -/
theorem consumed_append_rest {r : Regex α} {s : List α} {m : Match α} (h : m ∈ r.run s) : m.consumed ++ m.rest = s := by
  refine run_keeps (P := fun s m => m.consumed ++ m.rest = s) (fun _ => rfl) ?_ (fun _ _ _ => rfl) (fun _ _ _ _ hm => hm) r
    r.only_true s m h
  intro s m m' hm hm'
  simp only [Match.next, List.append_assoc, hm', hm]

/-- What a match has consumed has the property of the pattern. -/
theorem consumed_only {Q : α → Prop} {G : Nat → Prop} {r : Regex α} (hr : r.Only Q G) {s : List α} {m : Match α}
    (h : m ∈ r.run s) : ∀ c ∈ m.consumed, Q c := by
  refine run_keeps (P := fun _ m => ∀ c ∈ m.consumed, Q c) ?_ ?_ ?_ (fun _ _ _ _ hm => hm) r hr s m h
  · exact fun _ c hc => absurd hc List.not_mem_nil
  · intro _ m m' hm hm' c hc
    rcases List.mem_append.1 hc with hc | hc
    · exact hm c hc
    · exact hm' c hc
  · intro c _ hc d hd
    obtain rfl := List.mem_singleton.1 hd
    exact hc

/-- The captures of a match are those of groups of the pattern. -/
theorem captures_only {Q : α → Prop} {G : Nat → Prop} {r : Regex α} (hr : r.Only Q G) {s : List α} {m : Match α}
    (h : m ∈ r.run s) : ∀ e ∈ m.captures, G e.1 := by
  refine run_keeps (P := fun _ m => ∀ e ∈ m.captures, G e.1) ?_ ?_ ?_ ?_ r hr s m h
  · exact fun _ e he => absurd he List.not_mem_nil
  · intro _ m m' hm hm' e he
    rcases List.mem_append.1 he with he | he
    · exact hm e he
    · exact hm' e he
  · exact fun _ _ _ e he => absurd he List.not_mem_nil
  · intro _ m index hindex hm e he
    rcases List.mem_append.1 he with he | he
    · exact hm e he
    · obtain rfl := List.mem_singleton.1 he
      exact hindex

/-- The match of `exec` is one of the pattern. -/
theorem mem_run_of_exec {r : Regex α} {s : List α} {m : Match α} (h : r.exec s = some m) : m ∈ r.run s :=
  List.mem_of_mem_head? h

/-- Without a match `exec` finds none. -/
theorem exec_eq_none_iff {r : Regex α} {s : List α} : r.exec s = none ↔ ∀ m, m ∉ r.run s := by
  rw [exec, List.head?_eq_none_iff, List.eq_nil_iff_forall_not_mem]

/-- A pattern that has a match matches. -/
theorem exec_isSome_iff {r : Regex α} {s : List α} : (r.exec s).isSome = true ↔ ∃ m, m ∈ r.run s := by
  rw [exec, List.isSome_head?]
  exact ⟨List.exists_mem_of_ne_nil _, fun ⟨_, hm⟩ => List.ne_nil_of_mem hm⟩

/-- A pattern without groups captures nothing. -/
theorem captures_eq_nil {Q : α → Prop} {r : Regex α} (hr : r.Only Q fun _ => False) {s : List α} {m : Match α} (h : m ∈ r.run s) :
    m.captures = [] :=
  List.eq_nil_iff_forall_not_mem.mpr fun e he => captures_only hr h e he

/-! ## Texts a pattern matches -/

/-- The pattern can match a text, whatever follows it. -/
def Matches (r : Regex α) (w : List α) : Prop := ∀ rest, ⟨w, [], rest⟩ ∈ r.run (w ++ rest)

/-- A pattern that matches how a text begins finds a match. -/
theorem Matches.isSome {r : Regex α} {w : List α} (h : r.Matches w) (rest : List α) : (r.exec (w ++ rest)).isSome = true :=
  exec_isSome_iff.mpr ⟨_, h rest⟩

/-- A character. -/
theorem char_matches {p : α → Bool} {c : α} (hc : p c = true) : (char p).Matches [c] :=
  fun rest => mem_run_char.mpr ⟨c, rest, rfl, hc, rfl⟩

/-- Two texts one after the other. -/
theorem seq_matches {r r' : Regex α} {w w' : List α} (h : r.Matches w) (h' : r'.Matches w') : (seq r r').Matches (w ++ w') := by
  intro rest
  rw [List.append_assoc]
  exact mem_run_seq.mpr ⟨_, h _, _, h' rest, rfl⟩

/-- Texts one after the other. -/
theorem seqs_matches {rs : List (Regex α)} {ws : List (List α)} (h : List.Forall₂ Matches rs ws) : (seqs rs).Matches ws.flatten := by
  induction h with
  | nil => exact fun rest => List.mem_singleton.mpr rfl
  | cons h _ ih => exact seq_matches h ih

/-- A run of characters. -/
theorem star_matches {p : α → Bool} {w : List α} (hw : ∀ c ∈ w, p c = true) : (star (char p)).Matches w := by
  intro rest
  have key : ∀ n, w.length ≤ n → ⟨w, [], rest⟩ ∈ repeated (char p).run n (w ++ rest) := by
    induction w with
    | nil =>
      intro n _
      cases n with
      | zero => exact List.mem_singleton.mpr rfl
      | succ n => exact mem_repeated_succ.mpr (.inr rfl)
    | cons c w ih =>
      intro n hn
      cases n with
      | zero => cases hn
      | succ n =>
        refine mem_repeated_succ.mpr (.inl ⟨_, char_matches (hw c List.mem_cons_self) (w ++ rest), List.cons_ne_nil _ _, ?_⟩)
        exact ⟨_, ih (fun d hd => hw d (List.mem_cons_of_mem _ hd)) n (Nat.le_of_succ_le_succ hn), rfl⟩
  refine key _ ?_
  rw [List.length_append]
  exact Nat.le_add_right _ _

end Regex
