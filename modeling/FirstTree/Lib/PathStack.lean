import Mathlib.Data.List.Basic
import Mathlib.Data.List.Induction

/-!
# Resolving a path on a stack

A path is read segment by segment: a segment names something and is pushed, steps out and pops what was pushed last, or moves nowhere.
Reading fails at a segment that is refused, and at a step out of the root. A segment is kept when what follows it never steps out of
it, which the depths of the path tell without reading it.
-/

namespace PathStack

variable {σ : Type*}

/-- How a segment moves. -/
inductive Move where
  | stay | up | down
  deriving DecidableEq, Repr

/-- Read one segment. -/
def step (move : σ → Option Move) (acc : List σ) (s : σ) : Option (List σ) :=
  match move s with
  | none => none
  | some .stay => some acc
  | some .up => if acc.isEmpty then none else some acc.dropLast
  | some .down => some (acc ++ [s])

/-- Read a path. -/
def resolve (move : σ → Option Move) (acc l : List σ) : Option (List σ) := l.foldlM (step move) acc

/-- How far a segment moves down. -/
def moveDepth (move : σ → Option Move) (s : σ) : Int :=
  match move s with
  | some .up => -1
  | some .down => 1
  | _ => 0

/-- How far a path moves down. -/
def depth (move : σ → Option Move) (l : List σ) : Int := l.foldr (fun s n => moveDepth move s + n) 0

/-- A path that never steps out of where it starts. -/
def Stays (move : σ → Option Move) (l : List σ) : Prop := ∀ l', l' <+: l → 0 ≤ depth move l'

variable {move : σ → Option Move}

@[simp] theorem depth_nil : depth move [] = 0 := rfl

@[simp] theorem depth_cons (s : σ) (l : List σ) : depth move (s :: l) = moveDepth move s + depth move l := rfl

@[simp] theorem depth_append (l l' : List σ) : depth move (l ++ l') = depth move l + depth move l' := by
  induction l with
  | nil => simp
  | cons s l ih =>
    rw [List.cons_append, depth_cons, depth_cons, ih]
    omega

@[simp] theorem resolve_nil (acc : List σ) : resolve move acc [] = some acc := rfl

theorem resolve_cons (acc l : List σ) (s : σ) : resolve move acc (s :: l) = (step move acc s).bind (resolve move · l) := rfl

theorem resolve_append (acc l l' : List σ) : resolve move acc (l ++ l') = (resolve move acc l).bind (resolve move · l') := by
  simp [resolve, List.foldlM_append]

theorem stays_nil : Stays move [] := by
  intro l' h
  rw [List.prefix_nil.mp h]
  exact Int.le_refl 0

/-- A path whose end is below its start stays when the rest of it does. -/
theorem stays_concat {l : List σ} {s : σ} (h : Stays move l) (hs : 0 ≤ depth move (l ++ [s])) : Stays move (l ++ [s]) := by
  intro l' h'
  rcases List.prefix_concat_iff.mp h' with rfl | h'
  · exact hs
  · exact h l' h'

/-! ## What a read path tells -/

/-- What one segment does to the stack. -/
theorem step_cases {acc out : List σ} {s : σ} (h : step move acc s = some out) :
    (move s = some .stay ∧ out = acc) ∨ (move s = some .up ∧ acc ≠ [] ∧ out = acc.dropLast) ∨
      (move s = some .down ∧ out = acc ++ [s]) := by
  unfold step at h
  split at h
  · cases h
  · rename_i hm
    exact .inl ⟨hm, (Option.some.inj h).symm⟩
  · rename_i hm
    split at h
    · cases h
    · rename_i hne
      exact .inr (.inl ⟨hm, by simpa using hne, (Option.some.inj h).symm⟩)
  · rename_i hm
    exact .inr (.inr ⟨hm, (Option.some.inj h).symm⟩)

/-- One segment moves the top of the stack by its depth. -/
theorem length_step {acc out : List σ} {s : σ} (h : step move acc s = some out) :
    (out.length : Int) = acc.length + moveDepth move s := by
  rcases step_cases h with ⟨hm, rfl⟩ | ⟨hm, hne, rfl⟩ | ⟨hm, rfl⟩
  · simp [moveDepth, hm]
  · have hpos := List.length_pos_of_ne_nil hne
    simp only [moveDepth, hm, List.length_dropLast]
    omega
  · simp [moveDepth, hm]

/-- A path moves the top of the stack by its depth. -/
theorem length_resolve {acc l out : List σ} (h : resolve move acc l = some out) :
    (out.length : Int) = acc.length + depth move l := by
  induction l generalizing acc with
  | nil =>
    obtain rfl := Option.some.inj h
    simp
  | cons s l ih =>
    rw [resolve_cons, Option.bind_eq_some_iff] at h
    obtain ⟨acc', hs, h⟩ := h
    rw [ih h, length_step hs, depth_cons]
    omega

/-- One segment leaves alone what it does not step out of. -/
theorem step_under {acc x out : List σ} {s : σ} (h : step move (acc ++ x) s = some out) (hs : 0 ≤ x.length + moveDepth move s) :
    ∃ out', step move x s = some out' ∧ out = acc ++ out' := by
  rcases step_cases h with ⟨hm, rfl⟩ | ⟨hm, _, rfl⟩ | ⟨hm, rfl⟩
  · exact ⟨x, by rw [step, hm], rfl⟩
  · have hne : x ≠ [] := by
      rintro rfl
      simp [moveDepth, hm] at hs
    refine ⟨x.dropLast, ?_, List.dropLast_append_of_ne_nil hne⟩
    simp [step, hm, hne]
  · exact ⟨x ++ [s], by rw [step, hm], List.append_assoc acc x [s]⟩

/-- A path that stays leaves alone what was on the stack, and does to the rest what it does from the root. -/
theorem resolve_under {acc x l out : List σ} (h : resolve move (acc ++ x) l = some out)
    (hl : ∀ l', l' <+: l → 0 ≤ x.length + depth move l') : ∃ out', resolve move x l = some out' ∧ out = acc ++ out' := by
  induction l generalizing x with
  | nil => exact ⟨x, rfl, (Option.some.inj h).symm⟩
  | cons s l ih =>
    rw [resolve_cons, Option.bind_eq_some_iff] at h
    obtain ⟨mid, hs, h⟩ := h
    have hone := hl [s] (by simp)
    simp only [depth_cons, depth_nil, Int.add_zero] at hone
    obtain ⟨x', hx', rfl⟩ := step_under hs hone
    have hlen := length_step hx'
    obtain ⟨out', hout', rfl⟩ := ih h fun l' hl' => by
      have := hl (s :: l') (List.cons_prefix_cons.mpr ⟨rfl, hl'⟩)
      rw [depth_cons] at this
      omega
    exact ⟨out', by rw [resolve_cons, hx', Option.bind_some, hout'], rfl⟩

/-! ## The segments that are kept -/

/-- A named segment that the rest of the path never steps out of is kept, after what was read before it. -/
theorem kept_of_stays {pre post out : List σ} {s : σ} (hs : moveDepth move s = 1) (hpost : Stays move post)
    (h : resolve move [] (pre ++ s :: post) = some out) :
    ∃ before after, resolve move [] pre = some before ∧ out = before ++ s :: after ∧ (before.length : Int) = depth move pre ∧
      (after.length : Int) = depth move post := by
  rw [resolve_append, Option.bind_eq_some_iff] at h
  obtain ⟨before, hbefore, h⟩ := h
  rw [resolve_cons, Option.bind_eq_some_iff] at h
  obtain ⟨mid, hmid, h⟩ := h
  have hpushed : mid = before ++ [s] := by
    rcases step_cases hmid with ⟨hm, _⟩ | ⟨hm, _⟩ | ⟨_, rfl⟩
    · simp [moveDepth, hm] at hs
    · simp [moveDepth, hm] at hs
    · rfl
  rw [hpushed] at h
  obtain ⟨after, hafter, rfl⟩ := resolve_under (x := []) (by simpa using h) fun l' hl' => by simpa using hpost l' hl'
  refine ⟨before, after, hbefore, by simp, ?_, ?_⟩
  · simpa using length_resolve hbefore
  · simpa using length_resolve hafter

/-- Every segment of a read path was a named segment of it that the rest never steps out of. -/
theorem stays_of_kept {l : List σ} {s : σ} (before after : List σ) (h : resolve move [] l = some (before ++ s :: after)) :
    ∃ pre post, l = pre ++ s :: post ∧ moveDepth move s = 1 ∧ resolve move [] pre = some before ∧ Stays move post ∧
      depth move post = after.length := by
  -- By induction from the end of the path: its last segment pushes, pops or moves nowhere.
  induction l using List.reverseRecOn generalizing before s after with
  | nil =>
    have := congrArg List.length (Option.some.inj h)
    simp at this
  | append_singleton l t ih =>
    rw [resolve_append, Option.bind_eq_some_iff] at h
    obtain ⟨mid, hmid, h⟩ := h
    rw [resolve_cons, Option.bind_eq_some_iff] at h
    obtain ⟨out, ht, hout⟩ := h
    obtain rfl := Option.some.inj hout
    rcases step_cases ht with ⟨hm, hmid'⟩ | ⟨hm, hne, hmid'⟩ | ⟨hm, hmid'⟩
    · rw [← hmid'] at hmid
      obtain ⟨pre, post, rfl, hs, hpre, hpost, hd⟩ := ih _ _ hmid
      have hd' : depth move (post ++ [t]) = after.length := by simp [moveDepth, hm, hd]
      exact ⟨pre, post ++ [t], by simp, hs, hpre, stays_concat hpost (by omega), hd'⟩
    · have hsplit : mid = before ++ s :: (after ++ [mid.getLast hne]) := by
        rw [← List.cons_append, ← List.append_assoc, hmid']
        exact (List.dropLast_append_getLast hne).symm
      rw [hsplit] at hmid
      obtain ⟨pre, post, rfl, hs, hpre, hpost, hd⟩ := ih _ _ hmid
      have hd' : depth move (post ++ [t]) = after.length := by
        simp only [depth_append, hd, depth_cons, moveDepth, hm, depth_nil, List.length_append, List.length_singleton]
        omega
      exact ⟨pre, post ++ [t], by simp, hs, hpre, stays_concat hpost (by omega), hd'⟩
    · induction after using List.reverseRecOn with
      | nil =>
        obtain ⟨rfl, hst⟩ := List.append_inj' hmid' rfl
        obtain rfl := (List.cons.inj hst).1
        exact ⟨l, [], rfl, by simp [moveDepth, hm], hmid, stays_nil, rfl⟩
      | append_singleton after u _ =>
        rw [← List.cons_append, ← List.append_assoc] at hmid'
        obtain ⟨hmid', _⟩ := List.append_inj' hmid' rfl
        rw [← hmid'] at hmid
        obtain ⟨pre, post, rfl, hs, hpre, hpost, hd⟩ := ih _ _ hmid
        have hd' : depth move (post ++ [t]) = (after ++ [u]).length := by
          simp only [depth_append, hd, depth_cons, moveDepth, hm, depth_nil, List.length_append, List.length_singleton]
          omega
        exact ⟨pre, post ++ [t], by simp, hs, hpre, stays_concat hpost (by omega), hd'⟩

/-- Reading keeps named segments only. -/
theorem down_of_mem {l out : List σ} (h : resolve move [] l = some out) : ∀ s ∈ out, s ∈ l ∧ move s = some .down := by
  intro s hs
  obtain ⟨before, after, rfl⟩ := List.mem_iff_append.mp hs
  obtain ⟨pre, post, rfl, hdepth, _⟩ := stays_of_kept _ _ h
  refine ⟨by simp, ?_⟩
  unfold moveDepth at hdepth
  split at hdepth
  · cases hdepth
  · assumption
  · cases hdepth

/-- Reading moves no segment. -/
theorem resolve_sublist {acc l out : List σ} (h : resolve move acc l = some out) : out.Sublist (acc ++ l) := by
  induction l generalizing acc with
  | nil =>
    obtain rfl := Option.some.inj h
    simp
  | cons s l ih =>
    rw [resolve_cons, Option.bind_eq_some_iff] at h
    obtain ⟨mid, hs, h⟩ := h
    have hmid : mid.Sublist (acc ++ [s]) := by
      rcases step_cases hs with ⟨_, rfl⟩ | ⟨_, _, rfl⟩ | ⟨_, rfl⟩
      · exact List.sublist_append_left mid [s]
      · exact (List.dropLast_sublist acc).trans (List.sublist_append_left acc [s])
      · exact List.Sublist.refl _
    have := hmid.append_right l
    rw [List.append_assoc, List.singleton_append] at this
    exact (ih h).trans this

/-- A path of named segments is read as it stands. -/
theorem resolve_of_down {acc l : List σ} (h : ∀ s ∈ l, move s = some .down) : resolve move acc l = some (acc ++ l) := by
  induction l generalizing acc with
  | nil => simp
  | cons s l ih =>
    have hs : step move acc s = some (acc ++ [s]) := by rw [step, h s List.mem_cons_self]
    rw [resolve_cons, hs, Option.bind_some, ih fun t ht => h t (List.mem_cons_of_mem s ht), List.append_assoc, List.singleton_append]

end PathStack
