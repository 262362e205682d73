import Mathlib.Data.List.AList

/-!
# Open transactions on a shared store

A store of committed data and the transactions that are open on it, each with what it has read and what it is going to write. A
statement of a transaction reads the committed store and the transaction's own data, so two transactions meet only in the store and in
the locks they hold. A statement that needs a lock another transaction holds waits, or skips the row.

An invariant of such a system is a property of the store, one of each transaction with the store, and one of each pair of
transactions. A step of one transaction keeps it if it keeps the first two for itself, and does not interfere with the second for
the others.
-/

namespace Transactions

/-- The committed data and the open transactions, by their names. -/
structure System (σ κ τ : Type*) where
  store : σ
  active : AList fun _ : κ => τ

namespace System

variable {σ κ τ : Type*} [DecidableEq κ]

/-- A store with no transaction open. -/
def idle (store : σ) : System σ κ τ :=
  { store := store, active := ∅ }

/-- The transaction of a name, when it is open. -/
def find (s : System σ κ τ) (k : κ) : Option τ :=
  s.active.lookup k

/-- The system after a step of one transaction: the store, and the transaction when it stays open. -/
def put (s : System σ κ τ) (store : σ) (k : κ) : Option τ → System σ κ τ
  | some tx => { store := store, active := s.active.insert k tx }
  | none => { store := store, active := s.active.erase k }

/-- The open transactions of the other names. -/
def others (s : System σ κ τ) (k : κ) : List τ :=
  (s.active.erase k).entries.map (·.2)

/-- No transaction is open. -/
def Quiescent (s : System σ κ τ) : Prop :=
  ∀ k, s.find k = none

@[simp] theorem find_idle (store : σ) (k : κ) : (idle store : System σ κ τ).find k = none :=
  AList.lookup_empty k

theorem quiescent_of_nil {s : System σ κ τ} (h : s.active.entries = []) : s.Quiescent := by
  intro k
  rw [find, AList.lookup_eq_none, AList.mem_keys, AList.keys, h]
  exact List.not_mem_nil

@[simp] theorem store_put (s : System σ κ τ) (store : σ) (k : κ) (new : Option τ) : (s.put store k new).store = store := by
  cases new <;> rfl

/-- After a step of one transaction the others are as they were. -/
theorem find_put (s : System σ κ τ) (store : σ) (k k' : κ) (new : Option τ) :
    (s.put store k new).find k' = if k' = k then new else s.find k' := by
  by_cases h : k' = k
  · subst h
    cases new with
    | none => simp [put, find]
    | some tx => simp [put, find]
  · cases new with
    | none => simp [put, find, AList.lookup_erase_ne h, h]
    | some tx => simp [put, find, AList.lookup_insert_ne h, h]

/-- The other open transactions are those found under another name. -/
theorem mem_others {s : System σ κ τ} {k : κ} {tx : τ} : tx ∈ s.others k ↔ ∃ k', k' ≠ k ∧ s.find k' = some tx := by
  simp only [others, List.mem_map, Sigma.exists, find]
  constructor
  · rintro ⟨k', tx', hmem, rfl⟩
    have hfind : (s.active.erase k).lookup k' = some tx' := AList.mem_lookup_iff.mpr hmem
    have hne : k' ≠ k := by
      rintro rfl
      simp at hfind
    rw [AList.lookup_erase_ne hne] at hfind
    exact ⟨k', hne, hfind⟩
  · rintro ⟨k', hne, hfind⟩
    refine ⟨k', tx, ?_, rfl⟩
    rw [← AList.lookup_erase_ne hne] at hfind
    exact AList.mem_lookup_iff.mp hfind

end System

/-! ## Invariants -/

section Invariants

variable {σ κ τ : Type*} [DecidableEq κ] {P : σ → Prop} {Q : σ → τ → Prop} {R : τ → τ → Prop}

/-- What holds of the store, of each open transaction with the store, and between any two of them. -/
structure Invariant (P : σ → Prop) (Q : σ → τ → Prop) (R : τ → τ → Prop) (s : System σ κ τ) : Prop where
  store : P s.store
  own : ∀ k tx, s.find k = some tx → Q s.store tx
  apart : ∀ k k' tx tx', k ≠ k' → s.find k = some tx → s.find k' = some tx' → R tx tx'

/-- An idle system meets an invariant whose store part holds. -/
theorem Invariant.idle {store : σ} (h : P store) : Invariant P Q R (System.idle store : System σ κ τ) where
  store := h
  own k tx hfind := by simp at hfind
  apart k k' tx tx' _ hfind _ := by simp at hfind

/-- A step of one transaction keeps an invariant when it keeps the store's part and its own, leaves each other transaction's part
intact, and stays apart from the others. -/
theorem Invariant.put {s : System σ κ τ} (h : Invariant P Q R s) (hR : ∀ a b, R a b → R b a) {store : σ} {k : κ} {new : Option τ}
    (hstore : P store) (hown : ∀ tx, new = some tx → Q store tx)
    (hothers : ∀ tx ∈ s.others k, Q s.store tx → Q store tx)
    (hapart : ∀ tx, new = some tx → ∀ tx' ∈ s.others k, R tx tx') : Invariant P Q R (s.put store k new) where
  store := by rwa [System.store_put]
  own k' tx hfind := by
    rw [System.store_put]
    rw [System.find_put] at hfind
    split at hfind
    · exact hown tx hfind
    · next hne => exact hothers tx (System.mem_others.mpr ⟨k', hne, hfind⟩) (h.own k' tx hfind)
  apart k₁ k₂ tx₁ tx₂ hne hfind₁ hfind₂ := by
    rw [System.find_put] at hfind₁ hfind₂
    split at hfind₁
    · next h₁ =>
      have h₂ : k₂ ≠ k := fun he => hne (h₁.trans he.symm)
      rw [if_neg h₂] at hfind₂
      exact hapart tx₁ hfind₁ tx₂ (System.mem_others.mpr ⟨k₂, h₂, hfind₂⟩)
    · next h₁ =>
      split at hfind₂
      · exact hR _ _ (hapart tx₂ hfind₂ tx₁ (System.mem_others.mpr ⟨k₁, h₁, hfind₁⟩))
      · exact h.apart k₁ k₂ tx₁ tx₂ hne hfind₁ hfind₂

/-- A change of the store outside the open transactions keeps an invariant when it leaves their parts intact. -/
theorem Invariant.setStore {s : System σ κ τ} (h : Invariant P Q R s) {store : σ} (hstore : P store)
    (hothers : ∀ k tx, s.find k = some tx → Q s.store tx → Q store tx) : Invariant P Q R { s with store := store } where
  store := hstore
  own k tx hfind := hothers k tx hfind (h.own k tx hfind)
  apart := h.apart

end Invariants

/-! ## Locks -/

section Locks

variable {σ κ τ L : Type*} [DecidableEq κ]

/-- No lock is held by both. -/
def Exclusive (holds : τ → L → Prop) (a b : τ) : Prop :=
  ∀ l, holds a l → ¬ holds b l

theorem Exclusive.symm {holds : τ → L → Prop} {a b : τ} (h : Exclusive holds a b) : Exclusive holds b a :=
  fun l hb ha => h l ha hb

/-- No other transaction holds the lock. -/
def System.Free (holds : τ → L → Prop) (s : System σ κ τ) (k : κ) (l : L) : Prop :=
  ∀ tx ∈ s.others k, ¬ holds tx l

instance (holds : τ → L → Prop) [∀ tx l, Decidable (holds tx l)] (s : System σ κ τ) (k : κ) (l : L) : Decidable (s.Free holds k l) :=
  inferInstanceAs (Decidable (∀ tx ∈ s.others k, ¬ holds tx l))

end Locks

end Transactions
