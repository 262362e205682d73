import FirstTree.Client.ManagedState
import Mathlib.Data.List.Pairwise

/-!
# What reading and writing a managed state keeps

A state that was read back is normal: its entries may be persisted, no two keys share a folded target, no two entries share a key and
a target, and the entries stand in order. Reading a normal state back gives the state, and the journal of an install or a removal from
a normal state is read back with the state after it in normal form.
-/

namespace FirstTree

namespace ManagedStateAux

/-! ## Sorting -/

/-- A comparison of a part of two values is a comparison of the values. -/
theorem transCmp_on {α β : Type*} {cmp : β → β → Ordering} (h : Std.TransCmp cmp) (f : α → β) :
    Std.TransCmp fun a b => cmp (f a) (f b) where
  eq_swap := h.eq_swap
  isLE_trans h₁ h₂ := h.isLE_trans h₁ h₂

/-- The order of the entries compares consistently. -/
theorem transCmp_entries (C : Collation) : Std.TransCmp (compareEntries C) := by
  have := transCmp_on C.trans fun e : ManagedSkillEntry => e.key
  have := transCmp_on C.trans fun e : ManagedSkillEntry => portable e.target
  exact inferInstanceAs (Std.TransCmp (compareLex (fun a b : ManagedSkillEntry => C.localeCompare a.key b.key)
    fun a b => C.localeCompare (portable a.target) (portable b.target)))

/-- The order of the entries. -/
def entryLe (C : Collation) (a b : ManagedSkillEntry) : Prop := (compareEntries C a b).isLE = true

instance (C : Collation) : DecidableRel (entryLe C) := fun _ _ => inferInstanceAs (Decidable (_ = true))

instance (C : Collation) : Std.Total (entryLe C) where
  total a b := by
    have h := (transCmp_entries C).eq_swap (a := a) (b := b)
    unfold entryLe
    rw [h]
    cases compareEntries C b a <;> simp [Ordering.swap]

instance (C : Collation) : IsTrans ManagedSkillEntry (entryLe C) where
  trans _ _ _ h₁ h₂ := (transCmp_entries C).isLE_trans h₁ h₂

/-- The entries sorted. -/
theorem sortEntries_eq (C : Collation) (l : List ManagedSkillEntry) : sortEntries C l = l.insertionSort (entryLe C) := rfl

section InsertionSort

variable {α : Type*} {r : α → α → Prop} [DecidableRel r]

/-- An element inserted before all of a list. -/
theorem orderedInsert_of_forall {a : α} {l : List α} (h : ∀ b ∈ l, r a b) : l.orderedInsert r a = a :: l := by
  cases l with
  | nil => rfl
  | cons b l => rw [List.orderedInsert_cons, if_pos (h b List.mem_cons_self)]

/-- Inserting into a sorted list and filtering after it. -/
theorem filter_orderedInsert [IsTrans α r] (p : α → Bool) {a : α} {l : List α} (hl : l.Pairwise r) :
    (l.orderedInsert r a).filter p = if p a then (l.filter p).orderedInsert r a else l.filter p := by
  induction l with
  | nil => by_cases ha : p a = true <;> simp [ha]
  | cons b l ih =>
    have hb : ∀ c ∈ l, r b c := fun c hc => List.rel_of_pairwise_cons hl hc
    rw [List.orderedInsert_cons]
    by_cases hab : r a b
    · have hall : ∀ c ∈ (b :: l).filter p, r a c := by
        intro c hc
        rcases List.mem_cons.1 (List.mem_filter.1 hc).1 with rfl | hc'
        · exact hab
        · exact IsTrans.trans a b c hab (hb c hc')
      rw [if_pos hab, List.filter_cons, orderedInsert_of_forall hall]
    · rw [if_neg hab, List.filter_cons, ih hl.of_cons, List.filter_cons]
      by_cases hpb : p b = true
      · by_cases ha : p a = true
        · simp [hpb, ha, List.orderedInsert_cons, hab]
        · simp [hpb, ha]
      · simp [hpb]

/-- Sorting keeps the order of what a filter keeps. -/
theorem filter_insertionSort [Std.Total r] [IsTrans α r] (p : α → Bool) (l : List α) :
    (l.insertionSort r).filter p = (l.filter p).insertionSort r := by
  induction l with
  | nil => rfl
  | cons a l ih =>
    rw [List.insertionSort_cons, filter_orderedInsert p (List.pairwise_insertionSort r l), ih, List.filter_cons]
    by_cases ha : p a = true
    · rw [if_pos ha, if_pos ha, List.insertionSort_cons]
    · rw [if_neg ha, if_neg ha]

/-- A sorted list is sorted as it is. -/
theorem insertionSort_idem [Std.Total r] [IsTrans α r] (l : List α) : (l.insertionSort r).insertionSort r = l.insertionSort r :=
  (List.pairwise_insertionSort r l).insertionSort_eq

end InsertionSort

@[simp] theorem mem_sortEntries {C : Collation} {l : List ManagedSkillEntry} {e : ManagedSkillEntry} :
    e ∈ sortEntries C l ↔ e ∈ l := List.mem_insertionSort _

@[simp] theorem length_sortEntries (C : Collation) (l : List ManagedSkillEntry) : (sortEntries C l).length = l.length :=
  List.length_insertionSort _ l

/-- Filtering the sorted entries. -/
theorem filter_sortEntries (C : Collation) (p : ManagedSkillEntry → Bool) (l : List ManagedSkillEntry) :
    (sortEntries C l).filter p = sortEntries C (l.filter p) := by
  rw [sortEntries_eq, sortEntries_eq, filter_insertionSort]

@[simp] theorem sortEntries_idem (C : Collation) (l : List ManagedSkillEntry) :
    sortEntries C (sortEntries C l) = sortEntries C l := by
  rw [sortEntries_eq, sortEntries_eq, insertionSort_idem]

/-! ## One entry for each key and target -/

theorem sameSlot_iff {a b : ManagedSkillEntry} : sameSlot a b = true ↔ a.key = b.key ∧ a.target = b.target := by
  simp [sameSlot]

@[simp] theorem sameSlot_self (a : ManagedSkillEntry) : sameSlot a a = true := by simp [sameSlot]

/-- Entries of different slots. -/
def DistinctSlots (l : List ManagedSkillEntry) : Prop := l.Pairwise fun a b => sameSlot a b = false

theorem sameSlot_comm (a b : ManagedSkillEntry) : sameSlot a b = sameSlot b a := by
  simp only [sameSlot, Bool.beq_comm]

instance : Std.Symm fun a b : ManagedSkillEntry => sameSlot a b = false where
  symm a b hab := by rw [sameSlot_comm]; exact hab

/-- What stays after an entry is set. -/
theorem mem_setEntry {l : List ManagedSkillEntry} {e x : ManagedSkillEntry} (h : x ∈ setEntry l e) : x ∈ l ∨ x = e := by
  unfold setEntry at h
  split at h
  · obtain ⟨y, hy, hyx⟩ := List.mem_map.1 h
    split at hyx
    · exact .inr hyx.symm
    · exact .inl (hyx ▸ hy)
  · rcases List.mem_append.1 h with h | h
    · exact .inl h
    · exact .inr (by simpa using h)

/-- Setting an entry keeps the slots distinct. -/
theorem distinctSlots_setEntry {l : List ManagedSkillEntry} (h : DistinctSlots l) (e : ManagedSkillEntry) :
    DistinctSlots (setEntry l e) := by
  unfold setEntry
  split
  · rw [DistinctSlots, List.pairwise_map]
    refine h.imp fun {a b} hab => ?_
    simp only [Bool.eq_false_iff, ne_eq, sameSlot_iff] at hab ⊢
    split <;> split <;> simp_all [sameSlot_iff]
  · rename_i hnone
    refine List.pairwise_append.2 ⟨h, List.pairwise_singleton _ _, ?_⟩
    intro a ha b hb
    obtain rfl := List.mem_singleton.1 hb
    rw [sameSlot_comm]
    simpa using List.any_eq_false.1 (by simpa using hnone) a ha

/-- What the entries set one after another leave. -/
theorem mem_of_foldl_setEntry {l acc : List ManagedSkillEntry} {x : ManagedSkillEntry} (h : x ∈ l.foldl setEntry acc) :
    x ∈ acc ∨ x ∈ l := by
  induction l generalizing acc with
  | nil => exact .inl h
  | cons e l ih =>
    rcases ih h with h' | h'
    · rcases mem_setEntry h' with h'' | rfl
      · exact .inl h''
      · exact .inr List.mem_cons_self
    · exact .inr (List.mem_cons_of_mem _ h')

/-- The entries set one after another have distinct slots. -/
theorem distinctSlots_foldl {l acc : List ManagedSkillEntry} (h : DistinctSlots acc) : DistinctSlots (l.foldl setEntry acc) := by
  induction l generalizing acc with
  | nil => exact h
  | cons e l ih => exact ih (distinctSlots_setEntry h e)

/-- Entries of distinct slots are set one after another as they are. -/
theorem foldl_setEntry_of_distinct {l acc : List ManagedSkillEntry} (h : DistinctSlots (acc ++ l)) :
    l.foldl setEntry acc = acc ++ l := by
  induction l generalizing acc with
  | nil => simp
  | cons e l ih =>
    have hset : setEntry acc e = acc ++ [e] := by
      unfold setEntry
      rw [if_neg]
      intro hany
      obtain ⟨a, ha, hsame⟩ := List.any_eq_true.1 hany
      have hdis := (List.pairwise_append.1 h).2.2 a ha e List.mem_cons_self
      rw [sameSlot_comm, hdis] at hsame
      exact absurd hsame (by simp)
    rw [List.foldl_cons, hset, ih (by simpa using h)]
    simp

/-! ## Entries -/

theorem parseManagedSkillEntry_some {e e' : ManagedSkillEntry} (h : parseManagedSkillEntry e = some e') :
    e' = e ∧ isManagedSkillEntry e = true := by
  unfold parseManagedSkillEntry at h
  split at h
  · exact ⟨(Option.some.inj h).symm, ‹_›⟩
  · exact absurd h (by simp)

/-- Entries that may stand in one state. -/
structure Consistent (l : List ManagedSkillEntry) : Prop where
  valid : ∀ e ∈ l, isManagedSkillEntry e = true
  owner : ∀ a ∈ l, ∀ b ∈ l, foldTarget a.target = foldTarget b.target → a.key = b.key

/-- What the entries read back are, and that they are consistent. -/
theorem parseEntries_some {l l' : List ManagedSkillEntry} {owners : List (List (List Char) × String)}
    (h : parseEntries owners l = some l') :
    l' = l ∧ Consistent l ∧ ∀ e ∈ l, ∀ k, owners.lookup (foldTarget e.target) = some k → k = e.key := by
  induction l generalizing owners l' with
  | nil =>
    refine ⟨by simpa [parseEntries] using h.symm, ⟨by simp, by simp⟩, by simp⟩
  | cons raw rest ih =>
    simp only [parseEntries, Option.bind_eq_bind, Option.bind_eq_some_iff] at h
    obtain ⟨entry, hentry, hrest⟩ := h
    obtain ⟨rfl, hvalid⟩ := parseManagedSkillEntry_some hentry
    split at hrest
    · exact absurd hrest (by simp)
    rename_i hown
    obtain ⟨skills, hskills, hl'⟩ := Option.bind_eq_some_iff.1 hrest
    obtain ⟨rfl, hcons, howners⟩ := ih hskills
    have hhead : ∀ k, owners.lookup (foldTarget entry.target) = some k → k = entry.key := by
      intro k hk
      simpa [hk] using hown
    have hrest : ∀ e ∈ skills, foldTarget e.target = foldTarget entry.target → entry.key = e.key := by
      intro e he hfold
      exact howners e he entry.key (by simp [hfold])
    refine ⟨by simpa using hl'.symm, ⟨?_, ?_⟩, ?_⟩
    · intro e he
      rcases List.mem_cons.1 he with rfl | he
      · exact hvalid
      · exact hcons.valid e he
    · intro a ha b hb hfold
      rcases List.mem_cons.1 ha with ha' | ha' <;> rcases List.mem_cons.1 hb with hb' | hb'
      · rw [ha', hb']
      · rw [ha']
        exact hrest b hb' (by rw [← hfold, ha'])
      · rw [hb']
        exact (hrest a ha' (by rw [hfold, hb'])).symm
      · exact hcons.owner a ha' b hb' hfold
    · intro e he k hk
      rcases List.mem_cons.1 he with rfl | he
      · exact hhead k hk
      · by_cases hfold : foldTarget e.target = foldTarget entry.target
        · rw [hfold] at hk
          rw [hhead k hk, hrest e he hfold]
        · exact howners e he k (by rw [List.lookup_cons, beq_false_of_ne hfold]; exact hk)

/-- Consistent entries are read back. -/
theorem parseEntries_of_consistent {l : List ManagedSkillEntry} {owners : List (List (List Char) × String)} (hc : Consistent l)
    (ho : ∀ e ∈ l, ∀ k, owners.lookup (foldTarget e.target) = some k → k = e.key) : parseEntries owners l = some l := by
  induction l generalizing owners with
  | nil => rfl
  | cons entry rest ih =>
    have hvalid := hc.valid entry List.mem_cons_self
    have hrest : parseEntries ((foldTarget entry.target, entry.key) :: owners) rest = some rest := by
      refine ih ⟨fun e he => hc.valid e (List.mem_cons_of_mem _ he), fun a ha b hb =>
        hc.owner a (List.mem_cons_of_mem _ ha) b (List.mem_cons_of_mem _ hb)⟩ ?_
      intro e he k hk
      by_cases hfold : foldTarget e.target = foldTarget entry.target
      · rw [List.lookup_cons, hfold] at hk
        have hkey : entry.key = k := by simpa using hk
        rw [← hkey, hc.owner entry List.mem_cons_self e (List.mem_cons_of_mem _ he) hfold.symm]
      · rw [List.lookup_cons, beq_false_of_ne hfold] at hk
        exact ho e (List.mem_cons_of_mem _ he) k hk
    have hparse : parseManagedSkillEntry entry = some entry := by simp [parseManagedSkillEntry, hvalid]
    have hown : ((owners.lookup (foldTarget entry.target)).any fun existingOwner => existingOwner != entry.key) = false := by
      cases hlook : owners.lookup (foldTarget entry.target) with
      | none => rfl
      | some k => simp [ho entry List.mem_cons_self k hlook]
    simp only [parseEntries, hparse, Option.bind_eq_bind, Option.bind_some, hown, hrest]
    rfl

/-! ## States -/

/-- A state as it is read back. -/
structure Normal (C : Collation) (state : ManagedState) : Prop where
  fence : state.resourceConfigVersion ≤ maxSafeInteger
  consistent : Consistent state.skills
  distinct : DistinctSlots state.skills
  sorted : sortEntries C state.skills = state.skills

/-- A consistent state of distinct slots is read back in order. -/
theorem parse_of_distinct {C : Collation} {state : ManagedState} (hf : state.resourceConfigVersion ≤ maxSafeInteger)
    (hc : Consistent state.skills) (hd : DistinctSlots state.skills) :
    parseEmbeddedManagedState C state = some { state with skills := sortEntries C state.skills } := by
  have hparse : parseEntries [] state.skills = some state.skills := parseEntries_of_consistent hc (by simp)
  have hunique : state.skills.foldl setEntry [] = state.skills := by
    rw [foldl_setEntry_of_distinct (by simpa using hd), List.nil_append]
  simp [parseEmbeddedManagedState, hf, hparse, normalizeManagedState, hunique]

/-- A normal state is read back as it is. -/
theorem parse_of_normal {C : Collation} {state : ManagedState} (h : Normal C state) :
    parseEmbeddedManagedState C state = some state := by
  rw [parse_of_distinct h.fence h.consistent h.distinct, h.sorted]

/-- Sorting keeps distinct slots. -/
theorem distinctSlots_sortEntries {C : Collation} {l : List ManagedSkillEntry} (h : DistinctSlots l) :
    DistinctSlots (sortEntries C l) :=
  List.Perm.pairwise (List.perm_insertionSort (entryLe C) l).symm h fun hab => by rw [sameSlot_comm]; exact hab

/-- Some of the entries of a consistent list are consistent. -/
theorem Consistent.subset {l l' : List ManagedSkillEntry} (h : Consistent l) (hsub : ∀ e ∈ l', e ∈ l) : Consistent l' :=
  ⟨fun e he => h.valid e (hsub e he), fun a ha b hb => h.owner a (hsub a ha) b (hsub b hb)⟩

/-- What is read back is normal. -/
theorem normal_of_parse {C : Collation} {state state' : ManagedState} (h : parseEmbeddedManagedState C state = some state') :
    Normal C state' := by
  simp only [parseEmbeddedManagedState, Option.bind_eq_bind, Option.bind_eq_some_iff] at h
  obtain ⟨_, hguard, skills, hskills, hstate⟩ := h
  have hf : state.resourceConfigVersion ≤ maxSafeInteger := by
    by_contra hn
    exact absurd hguard (by simp [guard, hn])
  obtain ⟨rfl, hc, _⟩ := parseEntries_some hskills
  obtain rfl := Option.some.inj hstate
  have hsub : ∀ e ∈ state.skills.foldl setEntry [], e ∈ state.skills := fun e he =>
    (mem_of_foldl_setEntry he).resolve_left (by simp)
  exact { fence := hf
          consistent := hc.subset fun e he => hsub e (mem_sortEntries.1 he)
          distinct := distinctSlots_sortEntries (distinctSlots_foldl List.Pairwise.nil)
          sorted := sortEntries_idem C _ }

/-- The state file that is read as a current state holds one that reads back as it. -/
theorem normal_of_read {C : Collation} {file : Option ManagedStateFile} {state : ManagedState}
    (h : readManagedStateResult C file = .current state) : Normal C state := by
  unfold readManagedStateResult at h
  split at h
  all_goals first
    | exact absurd h (by simp)
    | skip
  split at h
  · obtain rfl := ManagedStateReadResult.current.inj h
    exact normal_of_parse ‹_›
  · exact absurd h (by simp)

/-- A normal state in the file is read as it is. -/
theorem read_of_normal {C : Collation} {state : ManagedState} (h : Normal C state) :
    readManagedStateResult C (some (.value state)) = .current state := by
  simp [readManagedStateResult, parse_of_normal h]

/-! ## An entry replaced or removed -/

theorem mem_replaceEntry {state : ManagedState} {entry e : ManagedSkillEntry} :
    e ∈ (replaceEntry state entry).skills ↔ (e ∈ state.skills ∧ sameSlot entry e = false) ∨ e = entry := by
  simp [replaceEntry]

theorem mem_removeEntry {state : ManagedState} {entry e : ManagedSkillEntry} :
    e ∈ (removeEntry state entry).skills ↔ e ∈ state.skills ∧ sameSlot entry e = false := by
  simp [removeEntry]

/-- A state an entry may be put into: the entry is valid, and no other key has its folded target. -/
structure Accepts (state : ManagedState) (entry : ManagedSkillEntry) : Prop where
  valid : isManagedSkillEntry entry = true
  owner : ∀ e ∈ state.skills, foldTarget e.target = foldTarget entry.target → e.key = entry.key

/-- A state with an entry in its place is consistent. -/
theorem consistent_replaceEntry {state : ManagedState} {entry : ManagedSkillEntry} (h : Consistent state.skills)
    (ha : Accepts state entry) : Consistent (replaceEntry state entry).skills := by
  constructor
  · intro e he
    rcases mem_replaceEntry.1 he with ⟨he, _⟩ | rfl
    · exact h.valid e he
    · exact ha.valid
  · intro a hma b hmb hfold
    rcases mem_replaceEntry.1 hma with ⟨hma, _⟩ | hma' <;> rcases mem_replaceEntry.1 hmb with ⟨hmb, _⟩ | hmb'
    · exact h.owner a hma b hmb hfold
    · rw [hmb']
      exact ha.owner a hma (by rw [hfold, hmb'])
    · rw [hma']
      exact (ha.owner b hmb (by rw [← hfold, hma'])).symm
    · rw [hma', hmb']

/-- A state with an entry in its place has distinct slots. -/
theorem distinctSlots_replaceEntry {state : ManagedState} {entry : ManagedSkillEntry} (h : DistinctSlots state.skills) :
    DistinctSlots (replaceEntry state entry).skills := by
  refine List.pairwise_append.2 ⟨h.filter _, List.pairwise_singleton _ _, ?_⟩
  intro a ha b hb
  obtain rfl := List.mem_singleton.1 hb
  rw [sameSlot_comm]
  simpa using (List.mem_filter.1 ha).2

/-- The state after an install, as it is read back. -/
def installedState (C : Collation) (state : ManagedState) (entry : ManagedSkillEntry) : ManagedState :=
  { state with skills := sortEntries C (replaceEntry state entry).skills }

/-- The state after a removal, as it is read back. -/
def removedState (C : Collation) (state : ManagedState) (entry : ManagedSkillEntry) : ManagedState :=
  { state with skills := sortEntries C (removeEntry state entry).skills }

theorem parse_replaceEntry {C : Collation} {state : ManagedState} {entry : ManagedSkillEntry} (h : Normal C state)
    (ha : Accepts state entry) : parseEmbeddedManagedState C (replaceEntry state entry) = some (installedState C state entry) :=
  parse_of_distinct h.fence (consistent_replaceEntry h.consistent ha) (distinctSlots_replaceEntry h.distinct)

theorem parse_removeEntry {C : Collation} {state : ManagedState} {entry : ManagedSkillEntry} (h : Normal C state) :
    parseEmbeddedManagedState C (removeEntry state entry) = some (removedState C state entry) :=
  parse_of_distinct h.fence (h.consistent.subset fun _ he => (mem_removeEntry.1 he).1) (h.distinct.filter _)

theorem normal_installedState {C : Collation} {state : ManagedState} {entry : ManagedSkillEntry} (h : Normal C state)
    (ha : Accepts state entry) : Normal C (installedState C state entry) := normal_of_parse (parse_replaceEntry h ha)

theorem normal_removedState {C : Collation} {state : ManagedState} {entry : ManagedSkillEntry} (h : Normal C state) :
    Normal C (removedState C state entry) := normal_of_parse (parse_removeEntry h)

/-! ## The entries at a target -/

/-- The entries at the target of an entry that is in the state are the entry. -/
theorem entriesAt_of_mem {C : Collation} {state : ManagedState} {entry : ManagedSkillEntry} (h : Normal C state)
    (hmem : entry ∈ state.skills) : entriesAt state entry.target = [entry] := by
  have hall : ∀ e ∈ entriesAt state entry.target, e = entry := by
    intro e he
    obtain ⟨hes, htarget⟩ := List.mem_filter.1 he
    have ht : e.target = entry.target := by simpa using htarget
    have hkey : e.key = entry.key := h.consistent.owner e hes entry hmem (by rw [ht])
    by_contra hne
    have hdis := List.Pairwise.forall h.distinct hes hmem hne
    exact absurd (sameSlot_iff.2 ⟨hkey, ht⟩) (by simp [hdis])
  have hin : entry ∈ entriesAt state entry.target := List.mem_filter.2 ⟨hmem, by simp⟩
  have hdis : DistinctSlots (entriesAt state entry.target) := h.distinct.filter _
  rcases hl : entriesAt state entry.target with _ | ⟨a, rest⟩
  · rw [hl] at hin
    exact absurd hin (by simp)
  · rw [hl] at hall hdis
    obtain rfl := hall a List.mem_cons_self
    rcases rest with _ | ⟨b, rest⟩
    · rfl
    · obtain rfl := hall b (by simp)
      exact absurd (List.rel_of_pairwise_cons hdis List.mem_cons_self) (by simp)

/-- The entries at a target a state accepts an entry for are at most one, of its key. -/
theorem entriesAt_of_accepts {C : Collation} {state : ManagedState} {entry : ManagedSkillEntry} (h : Normal C state)
    (ha : Accepts state entry) :
    entriesAt state entry.target = [] ∨ ∃ e, entriesAt state entry.target = [e] ∧ e.key = entry.key := by
  rcases hl : entriesAt state entry.target with _ | ⟨a, rest⟩
  · exact .inl rfl
  · have hain : a ∈ entriesAt state entry.target := hl ▸ List.mem_cons_self
    obtain ⟨hmem, htarget⟩ := List.mem_filter.1 hain
    have ht : a.target = entry.target := by simpa using htarget
    refine .inr ⟨a, ?_, ha.owner a hmem (by rw [ht])⟩
    rw [← hl, ← ht]
    exact entriesAt_of_mem h hmem

/-- The entries a slot leaves out are those of other targets and of other keys. -/
theorem filter_slot_target {state : ManagedState} {entry : ManagedSkillEntry} :
    (state.skills.filter fun e => !sameSlot entry e).filter (fun e => e.target != entry.target) =
      state.skills.filter fun e => e.target != entry.target := by
  rw [List.filter_filter]
  refine List.filter_congr fun e _ => ?_
  by_cases ht : e.target = entry.target
  · simp [ht]
  · have : sameSlot entry e = false := by
      rw [Bool.eq_false_iff, ne_eq, sameSlot_iff]
      exact fun hs => ht hs.2.symm
    simp [this]

/-- The entries at the target after an install are the one installed. -/
theorem entriesAt_installedState {C : Collation} {state : ManagedState} {entry : ManagedSkillEntry} (h : Normal C state)
    (ha : Accepts state entry) : entriesAt (installedState C state entry) entry.target = [entry] :=
  entriesAt_of_mem (normal_installedState h ha) (mem_sortEntries.2 (mem_replaceEntry.2 (.inr rfl)))

/-- No entry is at the target of an entry of the state after its removal. -/
theorem entriesAt_removedState {C : Collation} {state : ManagedState} {entry : ManagedSkillEntry} (h : Normal C state)
    (hmem : entry ∈ state.skills) : entriesAt (removedState C state entry) entry.target = [] := by
  refine List.filter_eq_nil_iff.2 fun e he htarget => ?_
  obtain ⟨hes, hslot⟩ := mem_removeEntry.1 (mem_sortEntries.1 he)
  have ht : e.target = entry.target := by simpa using htarget
  have hkey := h.consistent.owner e hes entry hmem (by rw [ht])
  exact absurd (sameSlot_iff.2 ⟨hkey.symm, ht.symm⟩) (by simp [hslot])

/-- An install changes no entry outside its target. -/
theorem match_installedState {C : Collation} (state : ManagedState) (entry : ManagedSkillEntry) :
    statesMatchOutsideTarget C state (installedState C state entry) entry.target = true := by
  have hafter : (replaceEntry state entry).skills.filter (fun e => e.target != entry.target) =
      state.skills.filter fun e => e.target != entry.target := by
    rw [replaceEntry, List.filter_append, filter_slot_target]
    simp
  simp only [statesMatchOutsideTarget, installedState, beq_iff_eq]
  rw [filter_sortEntries, hafter, sortEntries_idem]

/-- A removal changes no entry outside its target. -/
theorem match_removedState {C : Collation} (state : ManagedState) (entry : ManagedSkillEntry) :
    statesMatchOutsideTarget C state (removedState C state entry) entry.target = true := by
  simp only [statesMatchOutsideTarget, removedState, removeEntry, beq_iff_eq]
  rw [filter_sortEntries, filter_slot_target, sortEntries_idem]

/-- A state and the state after the removal of one of its entries differ. -/
theorem stateEquivalent_removedState {C : Collation} {state : ManagedState} {entry : ManagedSkillEntry}
    (hmem : entry ∈ state.skills) : stateEquivalent C state (removedState C state entry) = false := by
  rw [Bool.eq_false_iff, ne_eq]
  intro heq
  simp only [stateEquivalent, Bool.and_eq_true, beq_iff_eq] at heq
  have hin : entry ∈ sortEntries C (removedState C state entry).skills := heq.2 ▸ mem_sortEntries.2 hmem
  have := (mem_removeEntry.1 (mem_sortEntries.1 (mem_sortEntries.1 hin))).2
  exact absurd this (by simp)

theorem stateEquivalent_self (C : Collation) (state : ManagedState) : stateEquivalent C state state = true := by
  simp [stateEquivalent]

/-! ## Temporary paths -/

theorem toList_append (a b : String) : (a ++ b).toList = a.toList ++ b.toList := String.toList_append

@[simp] theorem parentOf_temporaryPath (target : WorkspacePath) (token suffix : String) :
    parentOf (temporaryPath target token suffix) = parentOf target := by
  simp [temporaryPath, parentOf]

@[simp] theorem nameOf_temporaryPath (target : WorkspacePath) (token suffix : String) :
    nameOf (temporaryPath target token suffix) = "." ++ nameOf target ++ ".ft-" ++ token ++ suffix := by
  simp [temporaryPath, nameOf]

/-- A path made for a target from a token is related to it. -/
theorem related_temporaryPath {target : WorkspacePath} {token suffix : String} (hname : nameOf target ≠ "")
    (ht : isToken token.toList = true) :
    isRelatedJournalTemporaryTarget target (temporaryPath target token suffix) suffix = true := by
  have hlist : ("." ++ nameOf target ++ ".ft-" ++ token ++ suffix).toList =
      ("." ++ nameOf target ++ ".ft-").toList ++ (token.toList ++ suffix.toList) := by
    simp only [toList_append, List.append_assoc]
  have hne : "." ++ nameOf target ++ ".ft-" ++ token ++ suffix ≠ "" := by
    intro hnil
    have := congrArg String.toList hnil
    simp at this
  have hslice : sliceBetween ("." ++ nameOf target ++ ".ft-" ++ token ++ suffix) ("." ++ nameOf target ++ ".ft-").toList.length
      suffix.toList.length = token.toList := by
    rw [sliceBetween, hlist, List.drop_left]
    have hlen : (("." ++ nameOf target ++ ".ft-").toList ++ (token.toList ++ suffix.toList)).length - suffix.toList.length -
        ("." ++ nameOf target ++ ".ft-").toList.length = token.toList.length := by
      simp only [List.length_append]
      omega
    rw [hlen, List.take_left]
  simp only [isRelatedJournalTemporaryTarget, nameOf_temporaryPath, parentOf_temporaryPath, hslice, ht, Bool.and_eq_true, bne_iff_ne,
    beq_self_eq_true, and_true]
  refine ⟨⟨⟨hname, hne⟩, ?_⟩, ?_⟩
  · exact List.isPrefixOf_iff_prefix.2 (hlist ▸ List.prefix_append _ _)
  · refine List.isSuffixOf_iff_suffix.2 ⟨("." ++ nameOf target ++ ".ft-" ++ token).toList, ?_⟩
    rw [← toList_append]

/-- What a path related to a target is. -/
structure Related (target temporary : WorkspacePath) (suffix : String) : Prop where
  name : nameOf target ≠ ""
  parent : parentOf temporary = parentOf target
  starts : ("." ++ nameOf target ++ ".ft-").toList <+: (nameOf temporary).toList
  ends : suffix.toList <:+ (nameOf temporary).toList

theorem related_iff_some {target temporary : WorkspacePath} {suffix : String}
    (h : isRelatedJournalTemporaryTarget target temporary suffix = true) : Related target temporary suffix := by
  simp only [isRelatedJournalTemporaryTarget, Bool.and_eq_true, bne_iff_ne, beq_iff_eq] at h
  obtain ⟨⟨⟨⟨⟨hname, _⟩, hparent⟩, hstarts⟩, hends⟩, _⟩ := h
  exact ⟨hname, hparent.symm, List.isPrefixOf_iff_prefix.1 hstarts, List.isSuffixOf_iff_suffix.1 hends⟩

/-- A path related to a target is not the target. -/
theorem Related.ne_target {target temporary : WorkspacePath} {suffix : String} (h : Related target temporary suffix) :
    temporary ≠ target := by
  intro heq
  have hlen := h.starts.length_le
  simp only [heq, toList_append, List.length_append] at hlen
  have : 0 < ".ft-".toList.length := by decide
  omega

/-- A staging path is not a backup path. -/
theorem Related.staging_ne_backup {target staging backup : WorkspacePath} (hs : Related target staging ".staging")
    (hb : Related target backup ".backup") : staging ≠ backup := by
  intro heq
  have hsuffix : ".backup".toList <:+ ".staging".toList :=
    List.suffix_of_suffix_length_le hb.ends (heq ▸ hs.ends) (by decide)
  exact absurd hsuffix (by decide)

/-- A path related to a target is not empty. -/
theorem Related.not_empty {target temporary : WorkspacePath} {suffix : String} (h : Related target temporary suffix) :
    isEmptyPath temporary = false := by
  have hlen := h.starts.length_le
  have hpos : 0 < (nameOf temporary).toList.length := by
    simp only [toList_append, List.length_append] at hlen
    have : 0 < ".ft-".toList.length := by decide
    omega
  rw [isEmptyPath, Bool.or_eq_false_iff]
  constructor <;>
  · rw [beq_eq_false_iff_ne]
    rintro rfl
    exact absurd hpos (by decide)

/-- A path related to a target is as long as it. -/
theorem Related.length_eq {target temporary : WorkspacePath} {suffix : String} (h : Related target temporary suffix) :
    temporary.length = target.length := by
  have hne : temporary ≠ [] := fun hnil => absurd (hnil ▸ h.not_empty) (by decide)
  have htarget : target ≠ [] := fun hnil => h.name (by rw [hnil]; rfl)
  have hlen := congrArg List.length h.parent
  simp only [parentOf, List.length_dropLast] at hlen
  have := List.length_pos_of_ne_nil hne
  have := List.length_pos_of_ne_nil htarget
  omega

end ManagedStateAux

end FirstTree
