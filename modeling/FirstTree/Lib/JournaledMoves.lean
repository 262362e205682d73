import Mathlib.Logic.Function.Basic
import Mathlib.Data.List.Basic

/-!
# Journaled moves

Files are what stands at paths. A list of moves renames what stands at the sources to the targets, one move after another; a
journal keeps the moves that are still to be made, and a move leaves it after its rename. A process that stops in between leaves
files on their way: the first move of the journal may have been made already. Whether it has is seen from its source and its
target alone.
-/

namespace JournaledMoves

variable {ι π ν : Type*} [DecidableEq π]

/-- What stands at the source of a rename stands at its target instead. -/
def rename (source target : π) (f : π → Option ν) : π → Option ν :=
  Function.update (Function.update f source none) target (f source)

/-- A move, whose source may have to be there. -/
structure Move (π : Type*) where
  source : π
  target : π
  required : Bool

/-- The files after a move: a rename where the source is there. -/
def Move.apply (m : Move π) (f : π → Option ν) : π → Option ν :=
  if (f m.source).isSome then rename m.source m.target f else f

/-- The files after some moves. -/
def applyAll (ms : List (Move π)) (f : π → Option ν) : π → Option ν :=
  ms.foldl (fun f m => m.apply f) f

/-- A move can be made: nothing is in its way, and it has what it requires. -/
structure Move.Ready (m : Move π) (f : π → Option ν) : Prop where
  ne : m.source ≠ m.target
  free : f m.target = none
  present : m.required = true → (f m.source).isSome = true

/-- Some moves can be made, one after another. -/
def Clear : List (Move π) → (π → Option ν) → Prop
  | [], _ => True
  | m :: ms, f => m.Ready f ∧ Clear ms (m.apply f)

/-- The files are on their way to a goal: the moves of the journal lead there, and the first may have been made already. -/
def UnderWay (ms : List (Move π)) (goal f : π → Option ν) : Prop :=
  ∃ g, Clear ms g ∧ applyAll ms g = goal ∧ (f = g ∨ ∃ m rest, ms = m :: rest ∧ f = m.apply g)

variable {m : Move π} {ms : List (Move π)} {f goal : π → Option ν}

/-! ## One move -/

/-- A move without its source changes nothing. -/
theorem Move.apply_of_none (h : f m.source = none) : m.apply f = f := by
  simp [Move.apply, h]

/-- A move with its source is a rename. -/
theorem Move.apply_of_isSome (h : (f m.source).isSome = true) : m.apply f = rename m.source m.target f := if_pos h

/-- Nothing is left at the source of a move. -/
theorem Move.apply_source (hne : m.source ≠ m.target) : m.apply f m.source = none := by
  cases hsource : f m.source with
  | none => rw [Move.apply_of_none hsource, hsource]
  | some v =>
    rw [Move.apply_of_isSome (by simp [hsource]), rename, Function.update_of_ne hne, Function.update_self]

/-- What stood at the source of a move to a free target stands there. -/
theorem Move.apply_target (hfree : f m.target = none) : m.apply f m.target = f m.source := by
  cases hsource : f m.source with
  | none => rw [Move.apply_of_none hsource, hfree]
  | some v => rw [Move.apply_of_isSome (by simp [hsource]), rename, Function.update_self, hsource]

/-- A move changes no other path. -/
theorem Move.apply_other {p : π} (hsource : p ≠ m.source) (htarget : p ≠ m.target) : m.apply f p = f p := by
  unfold Move.apply
  split
  · rw [rename, Function.update_of_ne htarget, Function.update_of_ne hsource]
  · rfl

/-! ## Files on their way -/

/-- Moves that can be made lead where they lead. -/
theorem UnderWay.start (h : Clear ms f) : UnderWay ms (applyAll ms f) f := ⟨f, h, rfl, .inl rfl⟩

/-- Files whose journal is empty have arrived. -/
theorem underWay_nil : UnderWay [] goal f ↔ f = goal := by
  constructor
  · rintro ⟨g, _, rfl, rfl | ⟨m, rest, hm, _⟩⟩
    · rfl
    · cases hm
  · rintro rfl
    exact ⟨f, trivial, rfl, .inl rfl⟩

/-- The first move of a journal has its source and a free target, and its rename goes on; or it is over, by its rename or since
there is nothing to move. -/
theorem UnderWay.cases (h : UnderWay (m :: ms) goal f) :
    (f m.source).isSome = true ∧ f m.target = none ∧ UnderWay (m :: ms) goal (rename m.source m.target f) ∧
        UnderWay ms goal (rename m.source m.target f) ∨
      f m.source = none ∧ (m.required = true → (f m.target).isSome = true) ∧ UnderWay ms goal f := by
  obtain ⟨g, ⟨hready, hclear⟩, hgoal, rfl | ⟨m', rest, hm, rfl⟩⟩ := h
  · cases hsource : f m.source with
    | some v =>
      have happly := Move.apply_of_isSome (m := m) (f := f) (by simp [hsource])
      refine .inl ⟨rfl, hready.free, ⟨f, ⟨hready, hclear⟩, hgoal, .inr ⟨m, ms, rfl, happly.symm⟩⟩, ?_⟩
      rw [← happly]
      exact ⟨m.apply f, hclear, hgoal, .inl rfl⟩
    | none =>
      have happly := Move.apply_of_none hsource
      refine .inr ⟨rfl, fun hrequired => ?_, f, happly ▸ hclear, ?_, .inl rfl⟩
      · have hpresent := hready.present hrequired
        rw [hsource] at hpresent
        cases hpresent
      · rw [← hgoal]
        show applyAll ms f = applyAll ms (m.apply f)
        rw [happly]
  · obtain ⟨rfl, rfl⟩ := List.cons.inj hm
    refine .inr ⟨Move.apply_source hready.ne, fun hrequired => ?_, m.apply g, hclear, hgoal, .inl rfl⟩
    rw [Move.apply_target hready.free]
    exact hready.present hrequired

/-! ## Moves side by side -/

/-- Moves side by side: each has its own source and its own target, and no source is a target. -/
structure SideBySide (source target : ι → π) : Prop where
  sources : Function.Injective source
  targets : Function.Injective target
  apart : ∀ i j, source i ≠ target j

/-- The moves of some keys. -/
def moves (source target : ι → π) (required : ι → Bool) (keys : List ι) : List (Move π) :=
  keys.map fun i => ⟨source i, target i, required i⟩

variable {source target : ι → π} {required : ι → Bool} {keys : List ι}

/-- Moves side by side change no other path. -/
theorem applyAll_other {p : π} (hsource : ∀ i ∈ keys, p ≠ source i) (htarget : ∀ i ∈ keys, p ≠ target i) :
    applyAll (moves source target required keys) f p = f p := by
  induction keys generalizing f with
  | nil => rfl
  | cons i keys ih =>
    refine (ih (fun j hj => hsource j (List.mem_cons_of_mem i hj)) fun j hj => htarget j (List.mem_cons_of_mem i hj)).trans ?_
    exact Move.apply_other (hsource i List.mem_cons_self) (htarget i List.mem_cons_self)

/-- Moves side by side to free targets leave their sources, and what stood there stands at the targets. -/
theorem applyAll_moves (hside : SideBySide source target) (hnodup : keys.Nodup) (hfree : ∀ i ∈ keys, f (target i) = none) {i : ι}
    (hi : i ∈ keys) : applyAll (moves source target required keys) f (source i) = none ∧
      applyAll (moves source target required keys) f (target i) = f (source i) := by
  induction keys generalizing f with
  | nil => cases hi
  | cons j keys ih =>
    obtain ⟨hnot, hnodup⟩ := List.nodup_cons.mp hnodup
    let first : Move π := ⟨source j, target j, required j⟩
    have hne : ∀ k ∈ keys, k ≠ j := fun k hk h => hnot (h ▸ hk)
    show applyAll (moves source target required keys) (first.apply f) (source i) = none ∧
      applyAll (moves source target required keys) (first.apply f) (target i) = f (source i)
    rcases List.mem_cons.mp hi with rfl | hi
    · have hothers : ∀ p, (∀ k ∈ keys, p ≠ source k) → (∀ k ∈ keys, p ≠ target k) →
          applyAll (moves source target required keys) (first.apply f) p = first.apply f p := fun p => applyAll_other
      rw [hothers _ (fun k hk h => hne k hk (hside.sources h).symm) fun k _ => hside.apart i k,
        hothers _ (fun k _ h => hside.apart k i h.symm) fun k hk h => hne k hk (hside.targets h).symm]
      exact ⟨Move.apply_source (m := first) (hside.apart i i), Move.apply_target (m := first) (hfree i List.mem_cons_self)⟩
    · have hsame : ∀ k ∈ keys, first.apply f (source k) = f (source k) ∧ first.apply f (target k) = f (target k) := fun k hk =>
        ⟨Move.apply_other (fun h => hne k hk (hside.sources h)) (hside.apart k j),
          Move.apply_other (fun h => hside.apart j k h.symm) fun h => hne k hk (hside.targets h)⟩
      obtain ⟨hleft, hmoved⟩ := ih (f := first.apply f) hnodup
        (fun k hk => (hsame k hk).2.trans (hfree k (List.mem_cons_of_mem j hk))) hi
      exact ⟨hleft, hmoved.trans (hsame i hi).1⟩

/-- Moves side by side to free targets can be made. -/
theorem clear_moves (hside : SideBySide source target) (hnodup : keys.Nodup) (hfree : ∀ i ∈ keys, f (target i) = none)
    (hpresent : ∀ i ∈ keys, required i = true → (f (source i)).isSome = true) : Clear (moves source target required keys) f := by
  induction keys generalizing f with
  | nil => trivial
  | cons j keys ih =>
    obtain ⟨hnot, hnodup⟩ := List.nodup_cons.mp hnodup
    have hne : ∀ k ∈ keys, k ≠ j := fun k hk h => hnot (h ▸ hk)
    refine ⟨⟨hside.apart j j, hfree j List.mem_cons_self, hpresent j List.mem_cons_self⟩,
      ih hnodup (fun k hk => ?_) fun k hk hrequired => ?_⟩
    · rw [Move.apply_other (fun h => hside.apart j k h.symm) fun h => hne k hk (hside.targets h)]
      exact hfree k (List.mem_cons_of_mem j hk)
    · rw [Move.apply_other (fun h => hne k hk (hside.sources h)) (hside.apart k j)]
      exact hpresent k (List.mem_cons_of_mem j hk) hrequired

/-- Some moves after others can be made when they can be made then. -/
theorem clear_append {rest : List (Move π)} (h : Clear ms f) (hrest : Clear rest (applyAll ms f)) : Clear (ms ++ rest) f := by
  induction ms generalizing f with
  | nil => exact hrest
  | cons m ms ih => exact ⟨h.1, ih h.2 hrest⟩

/-- The moves one list after the other. -/
theorem applyAll_append (ms rest : List (Move π)) (f : π → Option ν) : applyAll (ms ++ rest) f = applyAll rest (applyAll ms f) :=
  List.foldl_append

end JournaledMoves
