import Mathlib.Data.List.Basic
import Mathlib.Data.List.Nodup

/-!
# Questions and answers in a log

Posts in a log, of which one may ask a member a question and may answer the question of another post. A question is open until a post
answers it. When only the member asked may answer, a new post changes the number of open questions of a member by what it asks the
member, and by the question it is the first to answer.
-/

namespace Questions

variable {ι α : Type*} [DecidableEq ι] [DecidableEq α]

/-- A post: who sent it, whom it asks, and the post it answers. -/
structure Post (ι α : Type*) where
  id : ι
  sender : α
  asks : Option α
  answers : Option ι
  deriving DecidableEq

/-- A post of the log answers the question of an id. -/
def answered (posts : List (Post ι α)) (id : ι) : Bool :=
  posts.any fun p => decide (p.answers = some id)

/-- The number of questions to a member that no post answers. -/
def openCount (posts : List (Post ι α)) (a : α) : Nat :=
  posts.countP fun p => decide (p.asks = some a) && ! answered posts p.id

/-- A log with distinct ids, in which an answer is to a question its sender was asked. -/
structure Valid (posts : List (Post ι α)) : Prop where
  ids : (posts.map (·.id)).Nodup
  answers : ∀ p ∈ posts, ∀ q, p.answers = some q → ∃ p' ∈ posts, p'.id = q ∧ p'.asks = some p.sender

/-- What a post adds to the open questions of a member. -/
def opens (p : Post ι α) (a : α) : Nat := if p.asks = some a then 1 else 0

/-- What a new post takes from the open questions of a member: the question it is the first to answer. -/
def closes (posts : List (Post ι α)) (p : Post ι α) (a : α) : Nat :=
  if p.answers.any (fun q => ! answered posts q) ∧ p.sender = a then 1 else 0

omit [DecidableEq α] in
@[simp] theorem answered_append (posts : List (Post ι α)) (new : Post ι α) (id : ι) :
    answered (posts ++ [new]) id = (answered posts id || decide (new.answers = some id)) := by
  simp [answered]

omit [DecidableEq α] in
/-- Nothing answers an id that is new to a valid log. -/
theorem Valid.answered_fresh {posts : List (Post ι α)} (h : Valid posts) {id : ι} (fresh : ∀ p ∈ posts, p.id ≠ id) :
    answered posts id = false := by
  rw [answered, List.any_eq_false]
  intro p hp hans
  obtain ⟨p', hp', hid, _⟩ := h.answers p hp id (by simpa using hans)
  exact fresh p' hp' hid

omit [DecidableEq ι] [DecidableEq α] in
/-- A question is answered by the member asked. -/
theorem Valid.sender_of_answers {posts : List (Post ι α)} (h : Valid posts) {p r : Post ι α} (hp : p ∈ posts) (hr : r ∈ posts)
    (hans : r.answers = some p.id) : p.asks = some r.sender := by
  obtain ⟨p', hp', hid, hasks⟩ := h.answers r hr p.id hans
  rw [← List.inj_on_of_nodup_map h.ids hp' hp hid]
  exact hasks

omit [DecidableEq ι] [DecidableEq α] in
/-- A new post that answers a question its sender was asked keeps a log valid. -/
theorem Valid.append {posts : List (Post ι α)} (h : Valid posts) {new : Post ι α} (fresh : ∀ p ∈ posts, p.id ≠ new.id)
    (hnew : ∀ q, new.answers = some q → ∃ p ∈ posts ++ [new], p.id = q ∧ p.asks = some new.sender) : Valid (posts ++ [new]) where
  ids := by
    rw [List.map_append, List.map_singleton]
    refine List.nodup_append.mpr ⟨h.ids, List.nodup_singleton _, fun a ha b hb heq => ?_⟩
    obtain ⟨p, hp, rfl⟩ := List.mem_map.mp ha
    exact fresh p hp (heq.trans (List.mem_singleton.mp hb))
  answers p hp q hans := by
    rcases List.mem_append.mp hp with hp | hp
    · obtain ⟨p', hp', hrest⟩ := h.answers p hp q hans
      exact ⟨p', List.mem_append_left _ hp', hrest⟩
    · obtain rfl := List.mem_singleton.mp hp
      exact hnew q hans

omit [DecidableEq α] in
/-- Leaving one post out of a count takes off one when the post was counted. -/
theorem countP_without {posts : List (Post ι α)} (hids : (posts.map (·.id)).Nodup) {p : Post ι α} (hp : p ∈ posts)
    (f : Post ι α → Bool) :
    (posts.countP fun x => f x && ! decide (p.id = x.id)) + (if f p then 1 else 0) = posts.countP f := by
  induction posts with
  | nil => exact absurd hp List.not_mem_nil
  | cons x posts ih =>
    rw [List.map_cons, List.nodup_cons] at hids
    rcases List.mem_cons.mp hp with rfl | hp
    · -- The post itself is left out, and no later post has its id.
      have hrest : (posts.countP fun x => f x && ! decide (p.id = x.id)) = posts.countP f := by
        refine List.countP_congr fun x hx => ?_
        have hne : p.id ≠ x.id := fun heq => hids.1 (heq ▸ List.mem_map_of_mem hx)
        simp [hne]
      rw [List.countP_cons, List.countP_cons, hrest]
      simp
    · have hne : p.id ≠ x.id := fun heq => hids.1 (heq ▸ List.mem_map_of_mem hp)
      have hrest := ih hids.2 hp
      rw [List.countP_cons, List.countP_cons]
      simp only [hne, decide_false, Bool.not_false, Bool.and_true]
      omega

/-- An open question is counted. -/
theorem one_le_openCount {posts : List (Post ι α)} {p : Post ι α} (hp : p ∈ posts) {a : α} (hasks : p.asks = some a)
    (hopen : answered posts p.id = false) : 1 ≤ openCount posts a :=
  List.countP_pos_iff.mpr ⟨p, hp, by simp [hasks, hopen]⟩

/-- A new post changes the open questions of a member by what it asks and what it is the first to answer. -/
theorem openCount_append {posts : List (Post ι α)} (h : Valid posts) {new : Post ι α} (fresh : ∀ p ∈ posts, p.id ≠ new.id)
    (hnew : ∀ q, new.answers = some q → ∃ p ∈ posts ++ [new], p.id = q ∧ p.asks = some new.sender) (a : α) :
    openCount (posts ++ [new]) a + closes posts new a = openCount posts a + opens new a := by
  have hfresh := h.answered_fresh fresh
  have hsplit : openCount (posts ++ [new]) a =
      (posts.countP fun p => (decide (p.asks = some a) && ! answered posts p.id) && ! decide (new.answers = some p.id)) +
        if new.asks = some a ∧ new.answers ≠ some new.id then 1 else 0 := by
    rw [openCount, List.countP_append, List.countP_singleton]
    simp only [answered_append, hfresh, Bool.not_or, Bool.false_or, Bool.and_assoc]
    simp
  rw [hsplit]
  cases hans : new.answers with
  | none => simp [closes, opens, openCount, hans]
  | some q =>
    obtain ⟨p, hp, rfl, hasks⟩ := hnew q hans
    rcases List.mem_append.mp hp with hp | hp
    · -- The new post answers an earlier one.
      have hne : p.id ≠ new.id := fresh p hp
      have hwithout := countP_without h.ids hp fun x => decide (x.asks = some a) && ! answered posts x.id
      simp only [Option.some.injEq, hne, ne_eq, not_false_eq_true, and_true]
      have hcloses : closes posts new a = if (decide (p.asks = some a) && ! answered posts p.id) = true then 1 else 0 := by
        simp [closes, hans, hasks, and_comm]
      rw [hcloses, openCount, ← hwithout]
      simp only [opens]
      omega
    · -- The new post answers its own question.
      obtain rfl := List.mem_singleton.mp hp
      have hsame : (posts.countP fun x => (decide (x.asks = some a) && ! answered posts x.id) && ! decide (some p.id = some x.id)) =
          openCount posts a := by
        refine List.countP_congr fun x hx => ?_
        have hne : p.id ≠ x.id := fun heq => fresh x hx heq.symm
        simp [hne]
      rw [hsame]
      simp [closes, opens, hans, hfresh, hasks]

end Questions
