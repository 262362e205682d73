import Mathlib.Data.List.Induction
import Mathlib.Data.List.Nodup

/-!
# Maps in the order of insertion

A map that keeps its entries in the order in which their keys were first written, and the map that a fold collects from a list: an
entry for each key of the list, whose value is the fold of the elements of that key.
-/

/-- Entries with distinct keys, in the order of their first insertion. -/
structure OrderedMap (κ β : Type*) where
  entries : List (κ × β)
  nodup : (entries.map Prod.fst).Nodup

namespace OrderedMap

variable {κ α β γ : Type*} [DecidableEq κ]

/-! ## Reading and writing a key -/

/-- The value of a key in a list of entries. -/
def find (k : κ) : List (κ × β) → Option β
  | [] => none
  | (k', b) :: l => if k' = k then some b else find k l

/-- Writing a key in a list of entries: in its place, else at the end. -/
def write (k : κ) (f : Option β → β) : List (κ × β) → List (κ × β)
  | [] => [(k, f none)]
  | (k', b) :: l => if k' = k then (k', f (some b)) :: l else (k', b) :: write k f l

/-- A written key has its new value, every other key its old one. -/
theorem find_write (k k' : κ) (f : Option β → β) (l : List (κ × β)) :
    find k' (write k f l) = if k = k' then some (f (find k l)) else find k' l := by
  induction l with
  | nil => rfl
  | cons e l ih =>
    obtain ⟨j, b⟩ := e
    by_cases hj : j = k
    · subst hj
      by_cases hk : j = k' <;> simp [write, find, hk]
    · by_cases hk : j = k'
      · subst hk
        rw [write, if_neg hj, find, if_pos rfl, if_neg (Ne.symm hj), find, if_pos rfl]
      · simp [write, find, hj, hk, ih]

/-- The keys after a write. -/
theorem mem_keys_write {k k' : κ} {f : Option β → β} {l : List (κ × β)} :
    k' ∈ (write k f l).map Prod.fst ↔ k' = k ∨ k' ∈ l.map Prod.fst := by
  induction l with
  | nil => simp [write]
  | cons e l ih =>
    obtain ⟨j, b⟩ := e
    by_cases hj : j = k
    · subst hj
      simp [write]
    · rw [write, if_neg hj, List.map_cons, List.mem_cons, ih, List.map_cons, List.mem_cons]
      tauto

/-- A write keeps the keys distinct. -/
theorem nodup_write {k : κ} {f : Option β → β} {l : List (κ × β)} (h : (l.map Prod.fst).Nodup) :
    ((write k f l).map Prod.fst).Nodup := by
  induction l with
  | nil => simp [write]
  | cons e l ih =>
    obtain ⟨j, b⟩ := e
    rw [List.map_cons, List.nodup_cons] at h
    by_cases hj : j = k
    · rw [write, if_pos hj, List.map_cons, List.nodup_cons]
      exact h
    · rw [write, if_neg hj, List.map_cons, List.nodup_cons]
      refine ⟨fun hmem => ?_, ih h.2⟩
      rcases mem_keys_write.mp hmem with hk | hmem
      · exact hj hk
      · exact h.1 hmem

/-- The empty map. -/
def empty : OrderedMap κ β := ⟨[], List.nodup_nil⟩

/-- `Map.get`. -/
def get? (m : OrderedMap κ β) (k : κ) : Option β := find k m.entries

/-- `Map.set` of a value computed from the old one. -/
def upsert (m : OrderedMap κ β) (k : κ) (f : Option β → β) : OrderedMap κ β := ⟨write k f m.entries, nodup_write m.nodup⟩

/-- `Map.delete`. -/
def erase (m : OrderedMap κ β) (k : κ) : OrderedMap κ β :=
  ⟨m.entries.filter fun e => decide (e.1 ≠ k), m.nodup.sublist (List.filter_sublist.map _)⟩

/-- `Map.set`. -/
def set (m : OrderedMap κ β) (k : κ) (b : β) : OrderedMap κ β := m.upsert k fun _ => b

/-- `Map.keys`. -/
def keys (m : OrderedMap κ β) : List κ := m.entries.map Prod.fst

/-- `Map.values`. -/
def values (m : OrderedMap κ β) : List β := m.entries.map Prod.snd

@[simp] theorem get?_empty (k : κ) : (empty : OrderedMap κ β).get? k = none := rfl

/-- An updated key has its new value, every other key its old one. -/
theorem get?_upsert (m : OrderedMap κ β) (k k' : κ) (f : Option β → β) :
    (m.upsert k f).get? k' = if k = k' then some (f (m.get? k)) else m.get? k' :=
  find_write k k' f m.entries

/-- A key that was set has its value, every other key its old one. -/
theorem get?_set (m : OrderedMap κ β) (k k' : κ) (b : β) : (m.set k b).get? k' = if k = k' then some b else m.get? k' :=
  get?_upsert m k k' fun _ => b

/-- An erased key has no value, every other key its old one. -/
theorem get?_erase (m : OrderedMap κ β) (k k' : κ) : (m.erase k).get? k' = if k = k' then none else m.get? k' := by
  obtain ⟨l, hl⟩ := m
  simp only [get?, erase]
  clear hl
  induction l with
  | nil => simp [find]
  | cons e l ih =>
    obtain ⟨j, b⟩ := e
    by_cases hj : j = k
    · rw [List.filter_cons_of_neg (by simp [hj]), ih, find]
      by_cases hk : k = k'
      · rw [if_pos hk, if_pos hk]
      · rw [if_neg hk, if_neg hk, if_neg (fun h => hk (hj.symm.trans h))]
    · rw [List.filter_cons_of_pos (by simp [hj]), find, find, ih]
      by_cases hk : j = k'
      · rw [if_pos hk, if_neg (fun h => hj (hk.trans h.symm)), if_pos hk]
      · rw [if_neg hk, if_neg hk]

/-- The entries are what the keys are mapped to. -/
theorem mem_entries {m : OrderedMap κ β} {k : κ} {b : β} : (k, b) ∈ m.entries ↔ m.get? k = some b := by
  obtain ⟨l, hl⟩ := m
  simp only [get?]
  induction l with
  | nil => simp [find]
  | cons e l ih =>
    obtain ⟨j, c⟩ := e
    rw [List.map_cons, List.nodup_cons] at hl
    rw [List.mem_cons, ih hl.2, find]
    by_cases hj : j = k
    · subst hj
      rw [if_pos rfl]
      constructor
      · rintro (h | h)
        · rw [(Prod.mk.inj h).2]
        · exact absurd (List.mem_map.mpr ⟨(j, b), (ih hl.2).mpr h, rfl⟩) hl.1
      · intro h
        rw [Option.some.inj h]
        exact Or.inl rfl
    · rw [if_neg hj]
      constructor
      · rintro (h | h)
        · exact absurd (Prod.mk.inj h).1.symm hj
        · exact h
      · exact Or.inr

/-- The keys are those with a value. -/
theorem mem_keys {m : OrderedMap κ β} {k : κ} : k ∈ m.keys ↔ ∃ b, m.get? k = some b := by
  constructor
  · intro h
    obtain ⟨⟨k', b⟩, hmem, rfl⟩ := List.mem_map.mp h
    exact ⟨b, mem_entries.mp hmem⟩
  · rintro ⟨b, hb⟩
    exact List.mem_map.mpr ⟨(k, b), mem_entries.mpr hb, rfl⟩

/-- The values are those of the keys. -/
theorem mem_values {m : OrderedMap κ β} {b : β} : b ∈ m.values ↔ ∃ k, m.get? k = some b := by
  constructor
  · intro h
    obtain ⟨⟨k, b'⟩, hmem, rfl⟩ := List.mem_map.mp h
    exact ⟨k, mem_entries.mp hmem⟩
  · rintro ⟨k, hk⟩
    exact List.mem_map.mpr ⟨(k, b), mem_entries.mpr hk, rfl⟩

/-! ## Collecting a list -/

/-- The value a fold gives the elements of one key. -/
def gather (step : Option β → α → β) (l : List α) : Option β := l.foldl (fun o a => some (step o a)) none

/-- The map a fold collects: each element updates the value of its key. -/
def collect (key : α → κ) (step : Option β → α → β) (l : List α) : OrderedMap κ β :=
  l.foldl (fun m a => m.upsert (key a) fun o => step o a) empty

variable {step : Option β → α → β}

@[simp] theorem gather_nil : gather step [] = none := rfl

/-- The last element of a key is folded last. -/
theorem gather_concat (l : List α) (a : α) : gather step (l ++ [a]) = some (step (gather step l) a) := by
  simp [gather, List.foldl_append]

/-- The fold of no element is the only one without a value. -/
theorem gather_eq_none {l : List α} : gather step l = none ↔ l = [] := by
  rcases List.eq_nil_or_concat l with rfl | ⟨l, a, rfl⟩
  · simp
  · rw [List.concat_eq_append, gather_concat]
    simp

/-- What the first element of a key establishes and every later one keeps, the value of the key has. -/
theorem gather_induction {P : List α → β → Prop} (first : ∀ a, P [a] (step none a))
    (next : ∀ l a b, gather step l = some b → P l b → P (l ++ [a]) (step (some b) a)) {l : List α} {b : β}
    (h : gather step l = some b) : P l b := by
  induction l using List.reverseRecOn generalizing b with
  | nil => exact absurd h (by simp)
  | append_singleton l a ih =>
    rw [gather_concat] at h
    cases hl : gather step l with
    | none =>
      obtain rfl := gather_eq_none.mp hl
      rw [hl] at h
      obtain rfl := Option.some.inj h
      exact first a
    | some c =>
      rw [hl] at h
      obtain rfl := Option.some.inj h
      exact next l a c hl (ih hl)

/-- The value of a key is the fold of the elements of that key. -/
theorem get?_collect (key : α → κ) (step : Option β → α → β) (l : List α) (k : κ) :
    (collect key step l).get? k = gather step (l.filter fun a => key a = k) := by
  induction l using List.reverseRecOn with
  | nil => rfl
  | append_singleton l a ih =>
    have hcollect : collect key step (l ++ [a]) = (collect key step l).upsert (key a) fun o => step o a := by
      simp [collect, List.foldl_append]
    rw [hcollect, get?_upsert, List.filter_append]
    by_cases hk : key a = k
    · subst hk
      rw [if_pos rfl, ih]
      simp only [List.filter_singleton, decide_true]
      exact (gather_concat _ a).symm
    · rw [if_neg hk, ih]
      simp [hk]

end OrderedMap
