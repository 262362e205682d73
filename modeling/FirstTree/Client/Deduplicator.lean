import Mathlib.Data.List.Basic
import Mathlib.Data.List.Nodup
import Mathlib.Order.MinMax

/-!
# Deduplicator

A bounded set of recently seen ids, the oldest evicted first. The ids are kept in the order in which they came in; the set the
source keeps beside that order has the same members.
-/

namespace FirstTree

/-- The ids seen, oldest first, at most `capacity` of them. -/
structure Deduplicator (α : Type) (capacity : Nat) where
  order : List α
  nodup : order.Nodup
  bounded : order.length ≤ max 1 capacity

namespace Deduplicator

variable {α : Type} {capacity : Nat}

/-- Nothing has been seen. -/
def empty : Deduplicator α capacity :=
  { order := [], nodup := List.nodup_nil, bounded := by simp }

variable [DecidableEq α]

/-- Whether an id has been seen. -/
def has (d : Deduplicator α capacity) (id : α) : Bool := decide (id ∈ d.order)

/-- The order with room for one more id: at capacity the oldest id is evicted. -/
def evicted (d : Deduplicator α capacity) : List α :=
  if capacity ≤ d.order.length then d.order.tail else d.order

omit [DecidableEq α] in
theorem evicted_sublist (d : Deduplicator α capacity) : d.evicted.Sublist d.order := by
  unfold evicted
  split
  · exact List.tail_sublist _
  · exact List.Sublist.refl _

omit [DecidableEq α] in
theorem evicted_length (d : Deduplicator α capacity) : d.evicted.length + 1 ≤ max 1 capacity := by
  have hb := d.bounded
  unfold evicted
  split
  · rw [List.length_tail]
    omega
  · omega

/-- Record an unseen id. -/
def record (d : Deduplicator α capacity) (id : α) (h : id ∉ d.order) : Deduplicator α capacity :=
  { order := d.evicted ++ [id]
    nodup := by
      have hn := d.nodup.sublist d.evicted_sublist
      have hid : id ∉ d.evicted := fun hmem => h (d.evicted_sublist.subset hmem)
      simpa using List.Nodup.concat hid hn
    bounded := by
      rw [List.length_append]
      exact d.evicted_length }

/-- Whether an id has been seen; an unseen one is recorded. -/
def isDuplicate (d : Deduplicator α capacity) (id : α) : Bool × Deduplicator α capacity :=
  if h : id ∈ d.order then (true, d) else (false, d.record id h)

/-- Drop one id. -/
def drop (d : Deduplicator α capacity) (id : α) : Deduplicator α capacity :=
  { order := d.order.erase id
    nodup := d.nodup.erase id
    bounded := (List.length_erase_le).trans d.bounded }

/-- The answer is whether the id had been seen. -/
theorem isDuplicate_fst (d : Deduplicator α capacity) (id : α) : (d.isDuplicate id).1 = d.has id := by
  unfold isDuplicate has
  split
  · exact (decide_eq_true ‹id ∈ d.order›).symm
  · exact (decide_eq_false ‹id ∉ d.order›).symm

end Deduplicator

end FirstTree
