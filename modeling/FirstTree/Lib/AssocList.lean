import Mathlib.Algebra.GroupWithZero.Nat
import Mathlib.Data.List.AList

/-!
# Association lists: weights and folds of insertions

Three things Mathlib's association lists leave to their users: a total of a weight over the entries after an insertion or an erasure,
the value of a key after a filter by key, and after a fold that inserts an entry for each element of a list.
-/

namespace AssocList

variable {α : Type*} {β : α → Type*} [DecidableEq α]

/-! ## Totals -/

/-- The total of a weight over the entries. -/
def total (w : Sigma β → Nat) (m : AList β) : Nat :=
  (m.entries.map w).sum

/-- The weight of the entry of a key, zero when it has none. -/
def weightAt (w : Sigma β → Nat) (m : AList β) (a : α) : Nat :=
  (m.lookup a).elim 0 fun b => w ⟨a, b⟩

/-- Erasing a key from a list takes the weight of its entry off the total. -/
theorem sum_kerase (w : Sigma β → Nat) (a : α) (l : List (Sigma β)) :
    ((l.kerase a).map w).sum + ((l.dlookup a).elim 0 fun b => w ⟨a, b⟩) = (l.map w).sum := by
  induction l with
  | nil => rfl
  | cons e l ih =>
    obtain ⟨a', b⟩ := e
    by_cases h : a = a'
    · subst h
      have hl : List.kerase a (⟨a, b⟩ :: l) = l := List.kerase_cons_eq rfl
      rw [hl, List.dlookup_cons_eq]
      simp [Nat.add_comm]
    · rw [List.kerase_cons_ne h, List.dlookup_cons_ne _ _ h]
      simp only [List.map_cons, List.sum_cons]
      omega

/-- Erasing a key takes its weight off the total. -/
theorem total_erase (w : Sigma β → Nat) (m : AList β) (a : α) : total w (m.erase a) + weightAt w m a = total w m :=
  sum_kerase w a m.entries

/-- Inserting an entry replaces the weight of its key. -/
theorem total_insert (w : Sigma β → Nat) (m : AList β) (a : α) (b : β a) :
    total w (m.insert a b) + weightAt w m a = total w m + w ⟨a, b⟩ := by
  have h := sum_kerase w a m.entries
  simp only [total, weightAt, AList.lookup, AList.entries_insert, List.map_cons, List.sum_cons] at h ⊢
  omega

/-- A total that is not zero has an entry with a weight. -/
theorem exists_of_total_pos (w : Sigma β → Nat) (m : AList β) (h : 0 < total w m) : ∃ a b, m.lookup a = some b ∧ 0 < w ⟨a, b⟩ := by
  obtain ⟨n, hn, hpos⟩ := List.sum_pos_iff_exists_pos_nat.mp h
  obtain ⟨⟨a, b⟩, hmem, rfl⟩ := List.mem_map.mp hn
  exact ⟨a, b, AList.mem_lookup_iff.mpr hmem, hpos⟩

/-- The weights of the entries of a list with distinct keys are within a total that has as much at each of its keys. -/
theorem sum_le_total (w w' : Sigma β → Nat) (l : List (Sigma β)) (hl : l.NodupKeys) (m : AList β)
    (h : ∀ e ∈ l, w e ≤ weightAt w' m e.1) : (l.map w).sum ≤ total w' m := by
  induction l generalizing m with
  | nil => exact Nat.zero_le _
  | cons e l ih =>
    have hnodup := List.nodupKeys_cons.mp hl
    have hrest : (l.map w).sum ≤ total w' (m.erase e.1) := by
      refine ih hnodup.2 (m.erase e.1) fun e' he' => ?_
      have hne : e'.1 ≠ e.1 := fun heq => hnodup.1 (heq ▸ List.mem_map_of_mem he')
      have hweight : weightAt w' (m.erase e.1) e'.1 = weightAt w' m e'.1 := by simp only [weightAt, AList.lookup_erase_ne hne]
      rw [hweight]
      exact h e' (List.mem_cons_of_mem e he')
    have hhead := h e List.mem_cons_self
    have htotal := total_erase w' m e.1
    simp only [List.map_cons, List.sum_cons]
    omega

/-- A total is within another that has as much at each key. -/
theorem total_le_total (w w' : Sigma β → Nat) {m m' : AList β} (h : ∀ a b, m.lookup a = some b → w ⟨a, b⟩ ≤ weightAt w' m' a) :
    total w m ≤ total w' m' :=
  sum_le_total w w' m.entries m.nodupKeys m' fun e he => h e.1 e.2 (AList.mem_lookup_iff.mpr he)

omit [DecidableEq α] in
/-- The number of entries that meet a condition is a total. -/
theorem length_filter_eq_total (p : Sigma β → Bool) (m : AList β) :
    (m.entries.filter p).length = total (fun e => if p e then 1 else 0) m := by
  unfold total
  induction m.entries with
  | nil => rfl
  | cons e l ih =>
    rw [List.filter_cons, List.map_cons, List.sum_cons, ← ih]
    split <;> simp [Nat.add_comm]

omit [DecidableEq α] in
/-- The weight of the entries that meet a condition is a total. -/
theorem sum_filter_eq_total (p : Sigma β → Bool) (w : Sigma β → Nat) (m : AList β) :
    ((m.entries.filter p).map w).sum = total (fun e => if p e then w e else 0) m := by
  unfold total
  induction m.entries with
  | nil => rfl
  | cons e l ih =>
    rw [List.filter_cons, List.map_cons, List.sum_cons, ← ih]
    split <;> simp

/-! ## Filters by key -/

/-- The entries whose key meets a condition. -/
def filterKeys (p : α → Bool) (m : AList β) : AList β :=
  ⟨m.entries.filter fun e => p e.1, m.nodupKeys.sublist List.filter_sublist⟩

/-- A filter by key keeps the value of the keys it keeps and drops the others. -/
theorem lookup_filterKeys (p : α → Bool) (m : AList β) (a : α) :
    (filterKeys p m).lookup a = if p a then m.lookup a else none := by
  simp only [filterKeys, AList.lookup]
  generalize m.entries = l
  induction l with
  | nil => simp
  | cons e l ih =>
    obtain ⟨a', b⟩ := e
    by_cases h : a = a'
    · subst h
      cases hp : p a <;> simp [hp, ih]
    · have hne : ∀ l : List (Sigma β), List.dlookup a (⟨a', b⟩ :: l) = List.dlookup a l :=
        fun l => List.dlookup_cons_ne l ⟨a', b⟩ h
      cases hp : p a' <;> simp [hp, ih, hne]

/-- The entries that meet a condition. -/
def filterEntries (p : Sigma β → Bool) (m : AList β) : AList β :=
  ⟨m.entries.filter p, m.nodupKeys.sublist List.filter_sublist⟩

/-- A filter keeps the value of a key if its entry meets the condition. -/
theorem lookup_filterEntries (p : Sigma β → Bool) (m : AList β) (a : α) :
    (filterEntries p m).lookup a = (m.lookup a).filter fun b => p ⟨a, b⟩ := by
  refine Option.ext fun b => ?_
  rw [← Option.mem_def, AList.mem_lookup_iff, Option.filter_eq_some_iff, ← Option.mem_def, AList.mem_lookup_iff]
  exact List.mem_filter

/-- A filter that only entries of one key pass has the entry of that key, if it passes. -/
theorem filter_entries_of_key (m : AList β) (a : α) {p : Sigma β → Bool} (h : ∀ e ∈ m.entries, p e = true → e.1 = a) :
    m.entries.filter p = ((m.lookup a).filter fun b => p ⟨a, b⟩).toList.map fun b => ⟨a, b⟩ := by
  cases hfind : m.lookup a with
  | none =>
    refine List.filter_eq_nil_iff.mpr fun e he hp => ?_
    have hkey := h e he hp
    rw [AList.lookup_eq_none, ← hkey] at hfind
    exact hfind (List.mem_keys_of_mem he)
  | some b =>
    have hmem : (⟨a, b⟩ : Sigma β) ∈ m.entries := AList.mem_lookup_iff.mp hfind
    have honly : ∀ e ∈ m.entries, p e = true → e = ⟨a, b⟩ := fun e he hp =>
      m.nodupKeys.eq_of_fst_eq he hmem (h e he hp)
    cases hp : p ⟨a, b⟩ with
    | false =>
      rw [Option.filter_some, hp]
      exact List.filter_eq_nil_iff.mpr fun e he hpe => Bool.false_ne_true (hp.symm.trans (honly e he hpe ▸ hpe))
    | true =>
      rw [Option.filter_some, hp]
      have hfilter : m.entries.filter p = [⟨a, b⟩] := by
        refine List.perm_singleton.mp
          ((List.perm_ext_iff_of_nodup (m.nodupKeys.nodup.filter _) (List.nodup_singleton _)).mpr fun e => ?_)
        rw [List.mem_filter, List.mem_singleton]
        exact ⟨fun he => honly e he.1 he.2, fun he => he ▸ ⟨hmem, hp⟩⟩
      exact hfilter

/-! ## Insertions and unions, read at a key -/

/-- An insertion, read at any key. -/
theorem lookup_insert_ite {δ : Type*} (m : AList fun _ : α => δ) (a a' : α) (b : δ) :
    (m.insert a' b).lookup a = if a = a' then some b else m.lookup a := by
  by_cases h : a = a'
  · subst h
    simp
  · rw [if_neg h, AList.lookup_insert_ne h]

/-- A union reads the first list where it has the key, else the second. -/
theorem lookup_union (m m' : AList β) (a : α) : (m ∪ m').lookup a = (m.lookup a).or (m'.lookup a) := by
  by_cases h : a ∈ m
  · rw [AList.lookup_union_left h]
    obtain ⟨b, hb⟩ := Option.isSome_iff_exists.mp (AList.lookup_isSome.mpr h)
    rw [hb, Option.some_or]
  · rw [AList.lookup_union_right h, AList.lookup_eq_none.mpr h, Option.none_or]

/-- Two lists that read the same at every key, up to a function of the values, have the same entries up to it. -/
theorem map_entries_perm {δ ε : Type*} (f : δ → ε) {m m' : AList fun _ : α => δ}
    (h : ∀ a, (m.lookup a).map f = (m'.lookup a).map f) :
    (m.entries.map fun e => (e.1, f e.2)).Perm (m'.entries.map fun e => (e.1, f e.2)) := by
  have hnodup : ∀ m : AList fun _ : α => δ, (m.entries.map fun e => (e.1, f e.2)).Nodup := by
    intro m
    refine List.Nodup.of_map Prod.fst ?_
    rw [List.map_map]
    exact m.keys_nodup
  have hmem : ∀ (m : AList fun _ : α => δ) (p : α × ε), p ∈ (m.entries.map fun e => (e.1, f e.2)) ↔
      (m.lookup p.1).map f = some p.2 := by
    rintro m ⟨a, c⟩
    simp only [List.mem_map, Prod.mk.injEq, Sigma.exists, Option.map_eq_some_iff]
    constructor
    · rintro ⟨a', b, he, rfl, rfl⟩
      exact ⟨b, AList.mem_lookup_iff.mpr he, rfl⟩
    · rintro ⟨b, hb, rfl⟩
      exact ⟨a, b, AList.mem_lookup_iff.mp hb, rfl, rfl⟩
  refine (List.perm_ext_iff_of_nodup (hnodup m) (hnodup m')).mpr fun p => ?_
  rw [hmem, hmem, h]

/-! ## Folds of insertions -/

/-- After one value is inserted under each key of a list. -/
theorem lookup_foldl_insert {δ : Type*} (keys : List α) (v : δ) (m : AList fun _ : α => δ) (a : α) :
    (keys.foldl (fun m k => m.insert k v) m).lookup a = if a ∈ keys then some v else m.lookup a := by
  induction keys generalizing m with
  | nil => rw [List.foldl_nil, if_neg List.not_mem_nil]
  | cons k keys ih =>
    rw [List.foldl_cons, ih, lookup_insert_ite]
    by_cases hmem : a ∈ keys
    · rw [if_pos hmem, if_pos (List.mem_cons_of_mem _ hmem)]
    · rw [if_neg hmem]
      by_cases hkey : a = k
      · rw [if_pos hkey, if_pos (hkey ▸ List.mem_cons_self)]
      · rw [if_neg hkey, if_neg fun hcons => (List.mem_cons.mp hcons).elim hkey hmem]

variable {γ δ : Type*} (p : γ → Bool) (key : γ → α) (val : γ → δ)

/-- Insert an entry for each element of a list that meets a condition. -/
def insertAll (m : AList fun _ : α => δ) (l : List γ) : AList fun _ : α => δ :=
  l.foldl (fun m e => if p e then m.insert (key e) (val e) else m) m

/-- After the insertions, a key has the value it had or the value of an element inserted under it. -/
theorem lookup_insertAll_cases (a : α) (m : AList fun _ : α => δ) (l : List γ) :
    (insertAll p key val m l).lookup a = m.lookup a ∨
      ∃ e ∈ l, p e = true ∧ key e = a ∧ (insertAll p key val m l).lookup a = some (val e) := by
  induction l generalizing m with
  | nil => exact Or.inl rfl
  | cons e l ih =>
    simp only [insertAll, List.foldl_cons] at ih ⊢
    rcases ih (if p e then m.insert (key e) (val e) else m) with h | ⟨e', he', hp, hk, h⟩
    · by_cases hp : p e = true
      · by_cases hk : key e = a
        · subst hk
          refine Or.inr ⟨e, List.mem_cons_self, hp, rfl, ?_⟩
          rw [h, if_pos hp, AList.lookup_insert]
        · rw [if_pos hp, AList.lookup_insert_ne (Ne.symm hk)] at h
          exact Or.inl (by rw [if_pos hp]; exact h)
      · rw [if_neg hp] at h
        exact Or.inl (by rw [if_neg hp]; exact h)
    · exact Or.inr ⟨e', List.mem_cons_of_mem _ he', hp, hk, h⟩

/-- After the insertions, a key under which only one value is inserted has that value. -/
theorem lookup_insertAll_of_mem {a : α} {v : δ} {l : List γ} {e : γ} (m : AList fun _ : α => δ) (he : e ∈ l) (hp : p e = true)
    (hk : key e = a) (hv : ∀ e' ∈ l, p e' = true → key e' = a → val e' = v) :
    (insertAll p key val m l).lookup a = some v := by
  induction l generalizing m with
  | nil => exact absurd he (by simp)
  | cons e₀ l ih =>
    have hv' : ∀ e' ∈ l, p e' = true → key e' = a → val e' = v := fun e' h => hv e' (List.mem_cons_of_mem _ h)
    simp only [insertAll, List.foldl_cons] at ih ⊢
    by_cases hl : e ∈ l
    · exact ih _ hl hv'
    · obtain rfl : e = e₀ := by simpa [hl] using he
      rw [if_pos hp]
      rcases lookup_insertAll_cases p key val a (m.insert (key e) (val e)) l with h | ⟨e', he', hp', hk', h⟩
      · simp only [insertAll] at h
        rw [h, ← hk, AList.lookup_insert, hv e List.mem_cons_self hp hk]
      · simp only [insertAll] at h
        rw [h, hv' e' he' hp' hk']

end AssocList
