import FirstTree.Client.ResetReplayAuthority

/-!
# Reset generations fence a chat until their disposition

Any sequence of arms, releases, supersedes, terminations, flushes and parked deliveries over any chats. A history numbers the
generations of each chat and records which of them a release accepted, so that a generation can be told from its successors.
-/

namespace FirstTree

open ResetReplayAuthority

variable {Chat Ref : Type} [DecidableEq Chat] [DecidableEq Ref]

/-- The operations that reach the Reset ledgers. -/
inductive ResetOp (Chat Ref : Type) where
  | arm (chatId : Chat) (ref : Option Ref) (join : Bool)
  | release (chatId : Chat) (ref : Option Ref)
  | supersede (chatId : Chat)
  | startTermination (chatId : Chat)
  | finishTermination (chatId : Chat)
  | flush (chatId : Chat) (result : Except String Unit)
  | park (chatId : Chat)

/-- The authority after one operation, with what its dependencies answer during it. -/
def ResetReplayAuthority.apply (a : ResetReplayAuthority Chat Ref) (deps : ResetReplayDeps Chat) :
    ResetOp Chat Ref → ResetReplayAuthority Chat Ref
  | .arm chatId ref join => a.armParkedResetFenceRelease deps chatId ref join
  | .release chatId ref => (a.releaseParkedResetFenceRecovery deps chatId ref).2
  | .supersede chatId => (a.supersedeResetGeneration deps chatId).2
  | .startTermination chatId => (a.runOrJoinTermination chatId).2
  | .finishTermination chatId => a.finishTermination chatId
  | .flush chatId result => (a.flushTerminateRegistry chatId result).2
  | .park chatId => a.parkDeliveryBehindResetAdmissionFence chatId

/-- The operation creates a generation for the chat: it arms a ref and does not join an armed generation. -/
def ResetReplayAuthority.armsFresh (a : ResetReplayAuthority Chat Ref) (chatId : Chat) : ResetOp Chat Ref → Bool
  | .arm c (some _) join => decide (c = chatId) && !(join && a.hasArmedResetGeneration chatId)
  | _ => false

/-- The operation is a release of the chat with a ref, and it is accepted. -/
def ResetReplayAuthority.acceptsRelease (a : ResetReplayAuthority Chat Ref) (deps : ResetReplayDeps Chat) (chatId : Chat) :
    ResetOp Chat Ref → Bool
  | .release c (some ref) => decide (c = chatId) && decide ((a.releaseParkedResetFenceRecovery deps c (some ref)).1 = .accepted)
  | _ => false

/-- The authority with its history: how many generations each chat has had, the refs each was armed with, and the generations
for which a release was accepted, in order. -/
structure ResetHistory (Chat Ref : Type) where
  authority : ResetReplayAuthority Chat Ref
  generation : Chat → Nat
  refsOf : Chat → Nat → Finset Ref
  accepted : List (Chat × Nat)

namespace ResetHistory

/-- The history of a new authority is empty. -/
def init : ResetHistory Chat Ref :=
  { authority := ResetReplayAuthority.init, generation := fun _ => 0, refsOf := fun _ _ => ∅, accepted := [] }

/-- The chat an operation is about. -/
def chatOf : ResetOp Chat Ref → Chat
  | .arm c _ _ => c
  | .release c _ => c
  | .supersede c => c
  | .startTermination c => c
  | .finishTermination c => c
  | .flush c _ => c
  | .park c => c

/-- The generation numbers after an operation. -/
def nextGeneration (h : ResetHistory Chat Ref) (op : ResetOp Chat Ref) (c : Chat) : Nat :=
  if h.authority.armsFresh c op then h.generation c + 1 else h.generation c

/-- The refs of each generation after an operation. -/
def nextRefsOf (h : ResetHistory Chat Ref) (op : ResetOp Chat Ref) (c : Chat) (n : Nat) : Finset Ref :=
  match op with
  | .arm chatId (some ref) _ =>
    if c = chatId ∧ n = h.nextGeneration op c then
      if h.authority.armsFresh c op then {ref} else insert ref (h.refsOf c n)
    else h.refsOf c n
  | _ => h.refsOf c n

/-- One operation on the history. -/
def step (h : ResetHistory Chat Ref) (label : ResetReplayDeps Chat × ResetOp Chat Ref) : ResetHistory Chat Ref :=
  { authority := h.authority.apply label.1 label.2
    generation := h.nextGeneration label.2
    refsOf := h.nextRefsOf label.2
    accepted := if h.authority.acceptsRelease label.1 (chatOf label.2) label.2 then
        h.accepted ++ [(chatOf label.2, h.generation (chatOf label.2))]
      else h.accepted }

/-- The operation lifts the chat's fence: an accepted release with a ref, or a supersede. -/
def Lifts (chatId : Chat) (h : ResetHistory Chat Ref) (label : ResetReplayDeps Chat × ResetOp Chat Ref) : Prop :=
  h.authority.acceptsRelease label.1 chatId label.2 = true ∨ label.2 = .supersede chatId

end ResetHistory

namespace ResetFencingAux

open ResetHistory

/-! ## What an operation does to the generations -/

omit [DecidableEq Ref] in
/-- Lifting the parked fence touches no generation. -/
@[simp] theorem runParked_generations (deps : ResetReplayDeps Chat) (a : ResetReplayAuthority Chat Ref) (chatId : Chat) :
    (a.runParkedResetFenceRecovery deps chatId).2.resetGenerations = a.resetGenerations := by
  unfold runParkedResetFenceRecovery
  split
  · rfl
  · split
    · rfl
    · split <;> rfl

/-- A release with a ref is accepted exactly when the ref is one of an unreleased generation's and the parked fence lifts. -/
theorem release_accepted_iff (deps : ResetReplayDeps Chat) (a : ResetReplayAuthority Chat Ref) (chatId : Chat) (ref : Ref) :
    (a.releaseParkedResetFenceRecovery deps chatId (some ref)).1 = .accepted ↔
      ∃ g, a.resetGenerations chatId = some g ∧ ref ∈ g.refs ∧ g.released = false ∧
        (a.runParkedResetFenceRecovery deps chatId).1 = true := by
  unfold releaseParkedResetFenceRecovery
  cases hg : a.resetGenerations chatId with
  | none => simp
  | some g =>
    by_cases href : ref ∈ g.refs
    · cases hrel : g.released with
      | true => simp [href, hrel]
      | false =>
        rcases hrun : a.runParkedResetFenceRecovery deps chatId with ⟨ok, a'⟩
        cases ok <;> simp [href, hrel]
    · simp [href]

/-- An accepted release marks the generation released and touches no other. -/
theorem release_generations_accepted {deps : ResetReplayDeps Chat} {a : ResetReplayAuthority Chat Ref} {chatId : Chat} {ref : Ref}
    {g : ResetGeneration Ref} (hg : a.resetGenerations chatId = some g)
    (h : (a.releaseParkedResetFenceRecovery deps chatId (some ref)).1 = .accepted) (c : Chat) :
    (a.releaseParkedResetFenceRecovery deps chatId (some ref)).2.resetGenerations c =
      if c = chatId then some { g with released := true } else a.resetGenerations c := by
  obtain ⟨g', hg', href, hrel, hrun⟩ := (release_accepted_iff deps a chatId ref).mp h
  obtain rfl : g = g' := Option.some.inj (hg.symm.trans hg')
  have hgens := runParked_generations deps a chatId
  rcases hpair : a.runParkedResetFenceRecovery deps chatId with ⟨ok, a'⟩
  rw [hpair] at hgens hrun
  simp only at hgens hrun
  simp [releaseParkedResetFenceRecovery, hg, href, hrel, hpair, hrun, setGeneration, hgens]

/-- A release that is not an accepted one with a ref touches no generation. -/
theorem release_generations_of_not_accepted {deps : ResetReplayDeps Chat} {a : ResetReplayAuthority Chat Ref} {chatId : Chat}
    {ref : Option Ref} (h : a.acceptsRelease deps chatId (.release chatId ref) = false) :
    (a.releaseParkedResetFenceRecovery deps chatId ref).2.resetGenerations = a.resetGenerations := by
  have hgens := runParked_generations deps a chatId
  rcases hpair : a.runParkedResetFenceRecovery deps chatId with ⟨ok, a'⟩
  rw [hpair] at hgens
  simp only at hgens
  cases ref with
  | none =>
    simp only [releaseParkedResetFenceRecovery, hpair]
    split
    · rfl
    · cases ok <;> exact hgens
  | some ref =>
    have hnot : (a.releaseParkedResetFenceRecovery deps chatId (some ref)).1 ≠ .accepted := by
      simpa [acceptsRelease] using h
    rw [Ne, release_accepted_iff] at hnot
    unfold releaseParkedResetFenceRecovery
    cases hg : a.resetGenerations chatId with
    | none => rfl
    | some g =>
      by_cases href : ref ∈ g.refs
      · cases hrel : g.released with
        | true => simp [href, hrel]
        | false =>
          cases ok with
          | true => exact absurd ⟨g, hg, href, hrel, by rw [hpair]⟩ hnot
          | false => simp [href, hrel, hpair, hgens]
      · simp [href]

omit [DecidableEq Ref] in
/-- Superseding deletes the chat's generation and touches no other. -/
theorem supersede_generations (deps : ResetReplayDeps Chat) (a : ResetReplayAuthority Chat Ref) (chatId c : Chat) :
    (a.supersedeResetGeneration deps chatId).2.resetGenerations c = if c = chatId then none else a.resetGenerations c := by
  have hgens := runParked_generations deps (a.setGeneration chatId none) chatId
  rcases hpair : (a.setGeneration chatId none).runParkedResetFenceRecovery deps chatId with ⟨ok, a'⟩
  rw [hpair] at hgens
  have hset : (a.setGeneration chatId none).resetGenerations c = if c = chatId then none else a.resetGenerations c := rfl
  rw [← hset, ← hgens]
  cases ok <;> simp only [supersedeResetGeneration, hpair]

/-- Arming a ref leaves the generation it arms. -/
theorem arm_some_generations (deps : ResetReplayDeps Chat) (a : ResetReplayAuthority Chat Ref) (chatId c : Chat) (ref : Ref)
    (join : Bool) :
    (a.armParkedResetFenceRelease deps chatId (some ref) join).resetGenerations c =
      if c = chatId then some (armedGeneration (a.resetGenerations chatId) ref join) else a.resetGenerations c :=
  rfl

/-- Arming without a ref touches no generation. -/
theorem arm_none_generations (deps : ResetReplayDeps Chat) (a : ResetReplayAuthority Chat Ref) (chatId : Chat) (join : Bool) :
    (a.armParkedResetFenceRelease deps chatId none join).resetGenerations = a.resetGenerations := by
  simp only [armParkedResetFenceRelease]
  split
  · rfl
  · split
    · rfl
    · split <;> rfl

/-- An armed generation is unreleased and has the ref it was armed with. -/
theorem armedGeneration_spec (current : Option (ResetGeneration Ref)) (ref : Ref) (join : Bool) :
    (armedGeneration current ref join).released = false ∧ ref ∈ (armedGeneration current ref join).refs := by
  unfold armedGeneration
  split
  · split
    · rename_i hjoin
      exact ⟨hjoin.2, Finset.mem_insert_self _ _⟩
    · simp
  · simp

/-- What one operation does to the generation of a chat: an accepted release marks it released, a supersede deletes it, arming a
ref arms it, and every other operation leaves it. -/
theorem apply_cases (a : ResetReplayAuthority Chat Ref) (deps : ResetReplayDeps Chat) (op : ResetOp Chat Ref) (c : Chat) :
    (a.acceptsRelease deps c op = true ∧ ∃ g, a.resetGenerations c = some g ∧ g.released = false ∧
        (a.apply deps op).resetGenerations c = some { g with released := true }) ∨
      (op = .supersede c ∧ (a.apply deps op).resetGenerations c = none) ∨
      (∃ ref join, op = .arm c (some ref) join ∧
        (a.apply deps op).resetGenerations c = some (armedGeneration (a.resetGenerations c) ref join)) ∨
      (a.acceptsRelease deps c op = false ∧ (∀ ref join, op ≠ .arm c (some ref) join) ∧
        (a.apply deps op).resetGenerations c = a.resetGenerations c) := by
  cases op with
  | arm chatId ref join =>
    right; right
    cases ref with
    | none => exact Or.inr ⟨rfl, by simp, congrFun (arm_none_generations deps a chatId join) c⟩
    | some ref =>
      by_cases hc : c = chatId
      · subst hc
        exact Or.inl ⟨ref, join, rfl, by simp [apply, arm_some_generations]⟩
      · refine Or.inr ⟨rfl, ?_, by simp [apply, arm_some_generations, hc]⟩
        rintro ref' join' h
        injection h with h1
        exact hc h1.symm
  | release chatId ref =>
    cases hacc : a.acceptsRelease deps chatId (.release chatId ref) with
    | false =>
      have hgens := release_generations_of_not_accepted hacc
      refine Or.inr (Or.inr (Or.inr ⟨?_, by simp, congrFun hgens c⟩))
      by_cases hc : c = chatId
      · subst hc; exact hacc
      · cases ref <;> simp [acceptsRelease, Ne.symm hc]
    | true =>
      cases ref with
      | none => exact absurd hacc (by simp [acceptsRelease])
      | some ref =>
        have hv : (a.releaseParkedResetFenceRecovery deps chatId (some ref)).1 = .accepted := by simpa [acceptsRelease] using hacc
        obtain ⟨g, hg, _, hrel, _⟩ := (release_accepted_iff deps a chatId ref).mp hv
        have hgens := release_generations_accepted hg hv c
        by_cases hc : c = chatId
        · subst hc
          exact Or.inl ⟨hacc, g, hg, hrel, by simpa [apply] using hgens⟩
        · exact Or.inr (Or.inr (Or.inr ⟨by simp [acceptsRelease, Ne.symm hc], by simp, by simpa [apply, hc] using hgens⟩))
  | supersede chatId =>
    have hgens := supersede_generations deps a chatId c
    by_cases hc : c = chatId
    · subst hc
      exact Or.inr (Or.inl ⟨rfl, by simpa [apply] using hgens⟩)
    · exact Or.inr (Or.inr (Or.inr ⟨rfl, by simp, by simpa [apply, hc] using hgens⟩))
  | startTermination chatId =>
    refine Or.inr (Or.inr (Or.inr ⟨rfl, by simp, ?_⟩))
    simp only [apply, runOrJoinTermination]
    split <;> rfl
  | finishTermination chatId => exact Or.inr (Or.inr (Or.inr ⟨rfl, by simp, rfl⟩))
  | flush chatId result =>
    refine Or.inr (Or.inr (Or.inr ⟨rfl, by simp, ?_⟩))
    cases result <;> rfl
  | park chatId => exact Or.inr (Or.inr (Or.inr ⟨rfl, by simp, rfl⟩))

/-! ## The fence stands -/

omit [DecidableEq Ref] in
/-- An armed generation fences the chat, whatever the other ledgers hold. -/
theorem fenced_of_armed {a : ResetReplayAuthority Chat Ref} {chatId : Chat} (h : a.hasArmedResetGeneration chatId = true)
    (deps : ResetReplayDeps Chat) : a.isProviderRouteAdmissionFenced deps chatId = true := by
  simp [isProviderRouteAdmissionFenced, h]

/-- Arming a ref arms the chat. -/
theorem armed_arm (deps : ResetReplayDeps Chat) (a : ResetReplayAuthority Chat Ref) (chatId : Chat) (ref : Ref) (join : Bool) :
    (a.apply deps (.arm chatId (some ref) join)).hasArmedResetGeneration chatId = true := by
  simp [apply, hasArmedResetGeneration, arm_some_generations, armedGeneration_spec]

/-- An operation that does not lift the fence keeps an armed chat armed. -/
theorem armed_step {chatId : Chat} {h : ResetHistory Chat Ref} {label : ResetReplayDeps Chat × ResetOp Chat Ref}
    (harmed : h.authority.hasArmedResetGeneration chatId = true) (hnot : ¬ Lifts chatId h label) :
    (h.step label).authority.hasArmedResetGeneration chatId = true := by
  obtain ⟨deps, op⟩ := label
  have hcases := apply_cases h.authority deps op chatId
  simp only [step, hasArmedResetGeneration] at *
  rcases hcases with ⟨hacc, _⟩ | ⟨hsup, _⟩ | ⟨ref, join, _, hgens⟩ | ⟨_, _, hgens⟩
  · exact absurd (Or.inl hacc) hnot
  · exact absurd (Or.inr hsup) hnot
  · simp [hgens, armedGeneration_spec]
  · rw [hgens]
    exact harmed

/-! ## The history keeps its generations apart -/

/-- The invariant of a history: the accepted generations are distinct and not of the future, an accepted generation the chat still
holds is released, and the generation the chat holds has the refs recorded for its number. -/
structure Recorded (h : ResetHistory Chat Ref) : Prop where
  accepted_nodup : h.accepted.Nodup
  accepted_le : ∀ c n, (c, n) ∈ h.accepted → n ≤ h.generation c
  released_of_accepted : ∀ c g, (c, h.generation c) ∈ h.accepted → h.authority.resetGenerations c = some g → g.released = true
  refs_eq : ∀ c g, h.authority.resetGenerations c = some g → g.refs = h.refsOf c (h.generation c)

omit [DecidableEq Chat] [DecidableEq Ref] in
/-- The empty history is well recorded. -/
theorem recorded_init : Recorded (ResetHistory.init : ResetHistory Chat Ref) where
  accepted_nodup := List.nodup_nil
  accepted_le := by simp [ResetHistory.init]
  released_of_accepted := by simp [ResetHistory.init]
  refs_eq := by simp [ResetHistory.init, ResetReplayAuthority.init]

/-- An accepted release is about the chat it names. -/
theorem acceptsRelease_chatOf {a : ResetReplayAuthority Chat Ref} {deps : ResetReplayDeps Chat} {c : Chat} {op : ResetOp Chat Ref}
    (h : a.acceptsRelease deps c op = true) : chatOf op = c := by
  cases op with
  | release chatId ref =>
    cases ref with
    | none => exact absurd h (by simp [acceptsRelease])
    | some ref =>
      simp only [acceptsRelease, Bool.and_eq_true, decide_eq_true_eq] at h
      exact h.1
  | _ => exact absurd h (by simp [acceptsRelease])

/-- What a step adds to the accepted generations. -/
theorem mem_step_accepted {h : ResetHistory Chat Ref} {label : ResetReplayDeps Chat × ResetOp Chat Ref} {c : Chat} {n : Nat} :
    (c, n) ∈ (h.step label).accepted ↔
      (c, n) ∈ h.accepted ∨ (h.authority.acceptsRelease label.1 c label.2 = true ∧ n = h.generation c) := by
  simp only [step]
  split
  · rename_i hacc
    simp only [List.mem_append, List.mem_singleton, Prod.mk.injEq]
    constructor
    · rintro (hm | ⟨rfl, rfl⟩)
      · exact Or.inl hm
      · exact Or.inr ⟨hacc, rfl⟩
    · rintro (hm | ⟨hacc', rfl⟩)
      · exact Or.inl hm
      · exact Or.inr ⟨(acceptsRelease_chatOf hacc').symm, by rw [acceptsRelease_chatOf hacc']⟩
  · rename_i hacc
    refine ⟨Or.inl, ?_⟩
    rintro (hm | ⟨hacc', _⟩)
    · exact hm
    · rw [acceptsRelease_chatOf hacc'] at hacc
      exact absurd hacc' hacc

omit [DecidableEq Ref] in
/-- Arming creates a generation unless it joins an armed one. -/
theorem armsFresh_arm (a : ResetReplayAuthority Chat Ref) (c : Chat) (ref : Ref) (join : Bool) :
    a.armsFresh c (.arm c (some ref) join) = !(join && a.hasArmedResetGeneration c) := by
  simp [armsFresh]

omit [DecidableEq Chat] in
/-- The refs of the generation that arming leaves. -/
theorem armedGeneration_refs (a : ResetReplayAuthority Chat Ref) (c : Chat) (ref : Ref) (join : Bool) :
    (armedGeneration (a.resetGenerations c) ref join).refs =
      if join && a.hasArmedResetGeneration c then insert ref (((a.resetGenerations c).map (·.refs)).getD ∅) else {ref} := by
  unfold armedGeneration hasArmedResetGeneration
  cases a.resetGenerations c with
  | none => simp
  | some g => cases join <;> cases hg : g.released <;> simp [hg]

/-- An operation that arms no ref of the chat keeps the number of its generation and the refs of every number. -/
theorem step_record_of_not_arm {h : ResetHistory Chat Ref} {op : ResetOp Chat Ref} {c : Chat}
    (hop : ∀ ref join, op ≠ .arm c (some ref) join) (n : Nat) :
    h.nextGeneration op c = h.generation c ∧ h.nextRefsOf op c n = h.refsOf c n := by
  cases op with
  | arm chatId ref join =>
    cases ref with
    | none => simp [nextGeneration, nextRefsOf, armsFresh]
    | some ref =>
      have hc : c ≠ chatId := fun heq => hop ref join (by rw [heq])
      simp [nextGeneration, nextRefsOf, armsFresh, hc, Ne.symm hc]
  | _ => simp [nextGeneration, nextRefsOf, armsFresh]

/-- The number of a chat's generation never falls. -/
theorem generation_le_step (h : ResetHistory Chat Ref) (label : ResetReplayDeps Chat × ResetOp Chat Ref) (c : Chat) :
    h.generation c ≤ (h.step label).generation c := by
  simp only [step, nextGeneration]
  split <;> omega

/-- A step accepts no generation it accepted before. -/
theorem accepted_nodup_step {h : ResetHistory Chat Ref} (hrec : Recorded h) (label : ResetReplayDeps Chat × ResetOp Chat Ref) :
    (h.step label).accepted.Nodup := by
  obtain ⟨deps, op⟩ := label
  simp only [step]
  split
  · rename_i hacc
    refine List.Nodup.append hrec.accepted_nodup (List.nodup_singleton _) ?_
    rw [List.disjoint_singleton]
    intro hm
    rcases apply_cases h.authority deps op (chatOf op) with ⟨_, g, hg, hrel, _⟩ | ⟨hsup, _⟩ | ⟨ref, join, harm, _⟩ | ⟨hno, _⟩
    · rw [hrec.released_of_accepted _ g hm hg] at hrel
      exact absurd hrel (by simp)
    · rw [hsup] at hacc
      exact absurd hacc (by simp [acceptsRelease])
    · rw [harm] at hacc
      exact absurd hacc (by simp [acceptsRelease])
    · rw [hno] at hacc
      exact absurd hacc (by simp)
  · exact hrec.accepted_nodup

/-- After a step, an accepted generation the chat still holds is released. -/
theorem released_of_accepted_step {h : ResetHistory Chat Ref} (hrec : Recorded h)
    (label : ResetReplayDeps Chat × ResetOp Chat Ref) (c : Chat) (g : ResetGeneration Ref)
    (hm : (c, (h.step label).generation c) ∈ (h.step label).accepted)
    (hg : (h.step label).authority.resetGenerations c = some g) : g.released = true := by
  have hold : (h.step label).generation c = h.generation c := by
    rcases mem_step_accepted.mp hm with hm | ⟨_, heq⟩
    · exact le_antisymm (hrec.accepted_le c _ hm) (generation_le_step h label c)
    · exact heq
  rw [hold] at hm
  obtain ⟨deps, op⟩ := label
  rcases apply_cases h.authority deps op c with ⟨_, g', hg', _, hgens⟩ | ⟨_, hgens⟩ | ⟨ref, join, harm, hgens⟩ | ⟨hno, _, hgens⟩
  · obtain rfl : { g' with released := true } = g := Option.some.inj (hgens.symm.trans hg)
    rfl
  · exact absurd (hgens.symm.trans hg) (by simp)
  · subst harm
    -- The number has not grown, so the arm joined an armed generation, and an armed generation is not an accepted one.
    have hjoin : join = true ∧ h.authority.hasArmedResetGeneration c = true := by
      simp only [step, nextGeneration, armsFresh_arm] at hold
      cases hjoin : join && h.authority.hasArmedResetGeneration c with
      | true => simpa using hjoin
      | false => simp [hjoin] at hold
    have hacc : (c, h.generation c) ∈ h.accepted := by
      rcases mem_step_accepted.mp hm with hm | ⟨hacc, _⟩
      · exact hm
      · exact absurd hacc (by simp [acceptsRelease])
    cases hg' : h.authority.resetGenerations c with
    | none => exact absurd hjoin.2 (by simp [hasArmedResetGeneration, hg'])
    | some g' =>
      have hrel := hrec.released_of_accepted c g' hacc hg'
      exact absurd hjoin.2 (by simp [hasArmedResetGeneration, hg', hrel])
  · rcases mem_step_accepted.mp hm with hm | ⟨hacc, _⟩
    · exact hrec.released_of_accepted c g hm (hgens.symm.trans hg)
    · rw [hno] at hacc
      exact absurd hacc (by simp)

/-- After a step, the generation a chat holds has the refs recorded for its number. -/
theorem refs_eq_step {h : ResetHistory Chat Ref} (hrec : Recorded h) (label : ResetReplayDeps Chat × ResetOp Chat Ref)
    (c : Chat) (g : ResetGeneration Ref) (hg : (h.step label).authority.resetGenerations c = some g) :
    g.refs = (h.step label).refsOf c ((h.step label).generation c) := by
  obtain ⟨deps, op⟩ := label
  simp only [step] at hg ⊢
  rcases apply_cases h.authority deps op c with ⟨hacc, g', hg', _, hgens⟩ | ⟨_, hgens⟩ | ⟨ref, join, harm, hgens⟩ | ⟨_, hno, hgens⟩
  · have hop : ∀ ref join, op ≠ .arm c (some ref) join := by
      rintro ref join rfl
      exact absurd hacc (by simp [acceptsRelease])
    obtain rfl : { g' with released := true } = g := Option.some.inj (hgens.symm.trans hg)
    rw [(step_record_of_not_arm hop 0).1, (step_record_of_not_arm hop _).2]
    exact hrec.refs_eq c g' hg'
  · exact absurd (hgens.symm.trans hg) (by simp)
  · subst harm
    obtain rfl : armedGeneration (h.authority.resetGenerations c) ref join = g := Option.some.inj (hgens.symm.trans hg)
    rw [armedGeneration_refs]
    simp only [nextRefsOf, and_self, if_true, armsFresh_arm]
    cases hjoin : join && h.authority.hasArmedResetGeneration c with
    | false => simp
    | true =>
      cases hg' : h.authority.resetGenerations c with
      | none => exact absurd hjoin (by simp [hasArmedResetGeneration, hg'])
      | some g' => simp [hrec.refs_eq c g' hg', nextGeneration, armsFresh_arm, hjoin]
  · rw [(step_record_of_not_arm hno 0).1, (step_record_of_not_arm hno _).2]
    exact hrec.refs_eq c g (hgens.symm.trans hg)

/-- A step keeps the history well recorded. -/
theorem recorded_step : Runs.Preserves (Runs.ofTotal step) fun h : ResetHistory Chat Ref => Recorded h := by
  rintro h label _ hrec rfl
  refine ⟨accepted_nodup_step hrec label, ?_, released_of_accepted_step hrec label, refs_eq_step hrec label⟩
  intro c n hm
  rcases mem_step_accepted.mp hm with hm | ⟨_, rfl⟩
  · exact (hrec.accepted_le c n hm).trans (generation_le_step h label c)
  · exact generation_le_step h label c

/-! ## Stale and idempotent releases -/

/-- A chat whose generation is released answers `idempotent` to every ref of it. -/
theorem release_idempotent (deps : ResetReplayDeps Chat) {a : ResetReplayAuthority Chat Ref} {chatId : Chat}
    {g : ResetGeneration Ref} {ref : Ref} (hg : a.resetGenerations chatId = some g) (href : ref ∈ g.refs) (hrel : g.released = true) :
    a.releaseParkedResetFenceRecovery deps chatId (some ref) = (.idempotent, a) := by
  simp [releaseParkedResetFenceRecovery, hg, href, hrel]

/-- A ref that is not of the chat's generation is stale. -/
theorem release_stale (deps : ResetReplayDeps Chat) {a : ResetReplayAuthority Chat Ref} {chatId : Chat} {ref : Ref}
    (h : ∀ g, a.resetGenerations chatId = some g → ref ∉ g.refs) :
    a.releaseParkedResetFenceRecovery deps chatId (some ref) = (.stale, a) := by
  unfold releaseParkedResetFenceRecovery
  cases hg : a.resetGenerations chatId with
  | none => rfl
  | some g => simp [h g hg]

end ResetFencingAux

open ResetFencingAux

/-- Reset-generation fencing, over every run of operations on any chats. After an arm with a ref the chat stays fenced until an
accepted release of its generation or a supersede; each generation is accepted at most once, and the refs of an accepted one that
the chat still holds are idempotent; a ref of an earlier generation, a ref that is not of the generation the chat holds, and a
release without a ref while a generation is armed are stale and leave the authority as it is. -/
theorem reset_generation_fencing {ops : List (ResetReplayDeps Chat × ResetOp Chat Ref)} {h : ResetHistory Chat Ref}
    (hrun : Runs.Run (Runs.ofTotal ResetHistory.step) ResetHistory.init ops h) :
    (∀ deps chatId ref join later h',
        Runs.Run (Runs.Guarded (fun s a => ¬ ResetHistory.Lifts chatId s a) (Runs.ofTotal ResetHistory.step))
          (h.step (deps, .arm chatId (some ref) join)) later h' →
        ∀ deps', h'.authority.isProviderRouteAdmissionFenced deps' chatId = true) ∧
      h.accepted.Nodup ∧
      (∀ deps chatId ref, (chatId, h.generation chatId) ∈ h.accepted → h.authority.resetGenerations chatId ≠ none →
        ref ∈ h.refsOf chatId (h.generation chatId) →
        h.authority.releaseParkedResetFenceRecovery deps chatId (some ref) = (.idempotent, h.authority)) ∧
      (∀ deps chatId ref, ref ∉ h.refsOf chatId (h.generation chatId) →
        h.authority.releaseParkedResetFenceRecovery deps chatId (some ref) = (.stale, h.authority)) ∧
      (∀ deps chatId ref, h.authority.resetGenerations chatId = none →
        h.authority.releaseParkedResetFenceRecovery deps chatId (some ref) = (.stale, h.authority)) ∧
      (∀ deps chatId, h.authority.hasArmedResetGeneration chatId = true →
        h.authority.releaseParkedResetFenceRecovery deps chatId none = (.stale, h.authority)) := by
  have hrec : Recorded h := hrun.invariant recorded_step recorded_init
  refine ⟨?_, hrec.accepted_nodup, ?_, ?_, ?_, ?_⟩
  · intro deps chatId ref join later h' hlater deps'
    have hkeeps : Runs.Preserves (Runs.Guarded (fun s a => ¬ ResetHistory.Lifts chatId s a) (Runs.ofTotal ResetHistory.step))
        fun s : ResetHistory Chat Ref => s.authority.hasArmedResetGeneration chatId = true := by
      rintro s a _ harmed ⟨hnot, rfl⟩
      exact armed_step harmed hnot
    have harmed := hlater.invariant hkeeps (armed_arm deps h.authority chatId ref join)
    exact fenced_of_armed harmed deps'
  · intro deps chatId ref hacc hheld href
    obtain ⟨g, hg⟩ := Option.ne_none_iff_exists'.mp hheld
    rw [← hrec.refs_eq chatId g hg] at href
    exact release_idempotent deps hg href (hrec.released_of_accepted chatId g hacc hg)
  · intro deps chatId ref href
    refine release_stale deps fun g hg hmem => href ?_
    rw [← hrec.refs_eq chatId g hg]
    exact hmem
  · intro deps chatId ref hnone
    exact release_stale deps fun g hg => by simp [hnone] at hg
  · intro deps chatId harmed
    simp [releaseParkedResetFenceRecovery, harmed]

namespace ResetFencingExample

/-- A coordinator with debt on every chat and no quarantine. -/
def indebted : ResetReplayDeps Nat :=
  { hasRecoveryDebt := fun _ => true, hasUnsettledWork := fun _ => false, isQuarantineRestartRequired := fun _ => false }

/-- Two overlapping Resets of one chat: the second joins the first, the release of the first is refused while the termination runs
and accepted once it finished. -/
def overlappingResets : List (ResetReplayDeps Nat × ResetOp Nat Nat) :=
  [(indebted, .startTermination 7), (indebted, .arm 7 (some 1) false), (indebted, .arm 7 (some 2) true),
    (indebted, .release 7 (some 1)), (indebted, .finishTermination 7), (indebted, .release 7 (some 1))]

/-- After the overlapping Resets, the alias is idempotent and an unknown ref is stale. -/
theorem reset_generation_fencing_overlapping :
    let h := overlappingResets.foldl ResetHistory.step ResetHistory.init
    h.accepted = [(7, 1)] ∧ h.accepted.Nodup ∧
      (h.authority.releaseParkedResetFenceRecovery indebted 7 (some 2)).1 = .idempotent ∧
      (h.authority.releaseParkedResetFenceRecovery indebted 7 (some 3)).1 = .stale ∧
      (h.step (indebted, .arm 7 (some 4) false)).authority.isProviderRouteAdmissionFenced indebted 7 = true := by
  intro h
  obtain ⟨hfence, hnodup, hidem, hstale, _, _⟩ := reset_generation_fencing (h := h) (Runs.Run.ofTotal_iff.mpr rfl)
  refine ⟨by decide, hnodup, ?_, ?_, hfence indebted 7 4 false [] _ (Runs.Run.nil _) indebted⟩
  · rw [hidem indebted 7 2 (by decide) (by decide) (by decide)]
  · rw [hstale indebted 7 3 (by decide)]

end ResetFencingExample

end FirstTree
