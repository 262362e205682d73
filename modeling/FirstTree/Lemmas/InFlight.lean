import FirstTree.Server.InFlight

/-!
# The in-flight indexes agree

What each operation on the in-flight indexes does to the two views a reader has of them, the owner of an entry and the ids of a
bucket, and that it keeps the views inverse to each other without empty buckets.
-/

namespace FirstTree

open InboxInFlight

variable {Key : Type} [DecidableEq Key]

/-- The ids filed under an agent's chat. -/
def InboxInFlight.bucketIds (f : InboxInFlight Key) (agentId : Key) (chatKey : Option Key) : Finset Nat :=
  (f.bucket agentId chatKey).elim ∅ (·.entryIds)

/-- The two indexes agree: an entry is in the bucket of an agent's chat exactly when that is its owner, a bucket is filed under the
key of its chat, and no bucket and no agent's bucket map is empty. -/
structure InFlightAgree (f : InboxInFlight Key) : Prop where
  owner_iff : ∀ e a ck, f.inboxInFlightOwnersByEntryId e = some { agentId := a, chatKey := ck } ↔ e ∈ f.bucketIds a ck
  bucket_ok : ∀ a ck b, f.bucket a ck = some b → b.entryIds ≠ ∅ ∧ inboxChatKey b.chatId = ck
  byChat_ne : ∀ a m, f.inboxInFlightByAgent.lookup a = some m → m.entries ≠ []

namespace InFlightAux

/-- Nothing is in flight on a new socket. -/
theorem agree_empty : InFlightAgree (InboxInFlight.empty : InboxInFlight Key) where
  owner_iff := by simp [InboxInFlight.empty, bucketIds, bucket]
  bucket_ok := by simp [InboxInFlight.empty, bucket]
  byChat_ne := by simp [InboxInFlight.empty]

/-- An entry is in at most one bucket. -/
theorem bucket_unique {f : InboxInFlight Key} (h : InFlightAgree f) {e : Nat} {a a' : Key} {ck ck' : Option Key}
    (h₁ : e ∈ f.bucketIds a ck) (h₂ : e ∈ f.bucketIds a' ck') : a = a' ∧ ck = ck' := by
  have howner := ((h.owner_iff e a ck).mpr h₁).symm.trans ((h.owner_iff e a' ck').mpr h₂)
  simpa using howner

/-! ## Setting the bucket map of an agent -/

/-- The bucket map of an agent after it is set: a map without entries is no map. -/
theorem lookup_setByChat (f : InboxInFlight Key) (a a' : Key) (m : InboxInFlightByChat Key) :
    (f.setByChat a m).inboxInFlightByAgent.lookup a' =
      if a' = a then (if m.entries = [] then none else some m) else f.inboxInFlightByAgent.lookup a' := by
  unfold setByChat
  by_cases ha : a' = a
  · subst ha
    split <;> simp
  · split <;> simp [ha]

/-- The buckets after the map of an agent is set. -/
theorem bucket_setByChat (f : InboxInFlight Key) (a a' : Key) (m : InboxInFlightByChat Key) (ck : Option Key) :
    (f.setByChat a m).bucket a' ck = if a' = a then m.lookup ck else f.bucket a' ck := by
  unfold bucket
  rw [lookup_setByChat]
  by_cases ha : a' = a
  · simp only [ha, if_true]
    split
    · rename_i hm
      have hlookup : m.lookup ck = none := by
        rw [AList.lookup_eq_none, AList.mem_keys, AList.keys, hm]
        simp
      rw [hlookup]
      rfl
    · rfl
  · simp [ha]

/-- Setting a bucket map leaves no agent with an empty one. -/
theorem byChat_ne_setByChat {f : InboxInFlight Key} (h : ∀ a m, f.inboxInFlightByAgent.lookup a = some m → m.entries ≠ [])
    (a₀ : Key) (m₀ : InboxInFlightByChat Key) (a : Key) (m : InboxInFlightByChat Key)
    (hm : (f.setByChat a₀ m₀).inboxInFlightByAgent.lookup a = some m) : m.entries ≠ [] := by
  rw [lookup_setByChat] at hm
  by_cases ha : a = a₀
  · rw [if_pos ha] at hm
    by_cases hempty : m₀.entries = []
    · rw [if_pos hempty] at hm
      exact absurd hm (by simp)
    · rw [if_neg hempty] at hm
      exact Option.some.inj hm ▸ hempty
  · rw [if_neg ha] at hm
    exact h a m hm

/-- Setting a bucket map touches no owner. -/
@[simp] theorem owners_setByChat (f : InboxInFlight Key) (a : Key) (m : InboxInFlightByChat Key) :
    (f.setByChat a m).inboxInFlightOwnersByEntryId = f.inboxInFlightOwnersByEntryId := by
  unfold setByChat
  split <;> rfl

/-! ## Removing an entry -/

/-- Removing an entry takes its owner away and no other. -/
theorem owners_removeOne (f : InboxInFlight Key) (e e' : Nat) :
    (f.removeOne e).inboxInFlightOwnersByEntryId e' = if e' = e then none else f.inboxInFlightOwnersByEntryId e' := by
  unfold removeOne
  cases hown : f.inboxInFlightOwnersByEntryId e with
  | none =>
    by_cases he : e' = e
    · subst he
      simp [hown]
    · simp [he]
  | some owner =>
    simp only
    split
    · rfl
    · split <;> simp

/-- An entry in flight is in the bucket of its owner. -/
theorem bucket_of_owner {f : InboxInFlight Key} (h : InFlightAgree f) {e : Nat} {a : Key} {ck : Option Key}
    (hown : f.inboxInFlightOwnersByEntryId e = some { agentId := a, chatKey := ck }) :
    ∃ m b, f.inboxInFlightByAgent.lookup a = some m ∧ m.lookup ck = some b ∧ e ∈ b.entryIds := by
  have hmem := (h.owner_iff e a ck).mp hown
  unfold bucketIds bucket at hmem
  cases hm : f.inboxInFlightByAgent.lookup a with
  | none => simp [hm] at hmem
  | some m =>
    cases hb : m.lookup ck with
    | none => simp [hm, hb] at hmem
    | some b => exact ⟨m, b, rfl, hb, by simpa [hm, hb] using hmem⟩

/-- The buckets after an entry is removed: its bucket loses it and goes when that empties it, no other bucket changes. -/
theorem bucket_removeOne {f : InboxInFlight Key} (h : InFlightAgree f) {e : Nat} (a : Key) (ck : Option Key) :
    (f.removeOne e).bucket a ck =
      (f.bucket a ck).bind fun b =>
        if b.entryIds.erase e = ∅ then none else some { b with entryIds := b.entryIds.erase e } := by
  cases hown : f.inboxInFlightOwnersByEntryId e with
  | none =>
    have hsame : f.removeOne e = f := by simp [removeOne, hown]
    rw [hsame]
    cases hb : f.bucket a ck with
    | none => rfl
    | some b =>
      have hnot : e ∉ b.entryIds := by
        intro hmem
        have := (h.owner_iff e a ck).mpr (by simpa [bucketIds, hb] using hmem)
        rw [hown] at this
        exact absurd this (by simp)
      have hne := (h.bucket_ok a ck b hb).1
      simp [Finset.erase_eq_of_notMem hnot, hne]
  | some owner =>
    obtain ⟨a₀, ck₀⟩ := owner
    obtain ⟨m, b₀, hm, hb₀, hmem⟩ := bucket_of_owner h hown
    have hremove : f.removeOne e =
        ({ f with inboxInFlightOwnersByEntryId := fun e' => if e' = e then none else f.inboxInFlightOwnersByEntryId e' } :
            InboxInFlight Key).setByChat a₀
          (if b₀.entryIds.erase e = ∅ then m.erase ck₀ else m.insert ck₀ { b₀ with entryIds := b₀.entryIds.erase e }) := by
      simp [removeOne, hown, hm, hb₀]
    rw [hremove, bucket_setByChat]
    by_cases ha : a = a₀
    · subst ha
      rw [if_pos rfl]
      have hbucket : f.bucket a ck = m.lookup ck := by simp [bucket, hm]
      rw [hbucket]
      by_cases hck : ck = ck₀
      · subst hck
        rw [hb₀]
        split <;> simp [*]
      · have hother : ∀ b, m.lookup ck = some b → b.entryIds ≠ ∅ ∧ e ∉ b.entryIds := by
          intro b hb
          refine ⟨(h.bucket_ok a ck b (hbucket.trans hb)).1, fun hmem' => hck ?_⟩
          have h₁ : e ∈ f.bucketIds a ck := by simpa [bucketIds, hbucket, hb] using hmem'
          have h₂ : e ∈ f.bucketIds a ck₀ := (h.owner_iff e a ck₀).mp hown
          exact (bucket_unique h h₁ h₂).2
        cases hb : m.lookup ck with
        | none => split <;> simp [AList.lookup_erase_ne hck, AList.lookup_insert_ne hck, hb]
        | some b =>
          obtain ⟨hne, hnot⟩ := hother b hb
          split <;> simp [AList.lookup_erase_ne hck, AList.lookup_insert_ne hck, hb, Finset.erase_eq_of_notMem hnot, hne]
    · rw [if_neg ha]
      show f.bucket a ck = _
      cases hb : f.bucket a ck with
      | none => rfl
      | some b =>
        have hnot : e ∉ b.entryIds := by
          intro hmem'
          have h₁ : e ∈ f.bucketIds a ck := by simpa [bucketIds, hb] using hmem'
          exact ha (bucket_unique h h₁ ((h.owner_iff e a₀ ck₀).mp hown)).1
        simp [Finset.erase_eq_of_notMem hnot, (h.bucket_ok a ck b hb).1]

/-- The ids of the buckets after an entry is removed. -/
theorem bucketIds_removeOne {f : InboxInFlight Key} (h : InFlightAgree f) (e : Nat) (a : Key) (ck : Option Key) :
    (f.removeOne e).bucketIds a ck = (f.bucketIds a ck).erase e := by
  unfold bucketIds
  rw [bucket_removeOne h]
  cases hb : f.bucket a ck with
  | none => simp
  | some b =>
    simp only [Option.bind_some, Option.elim_some]
    split
    · rename_i hempty
      rw [hempty]
      rfl
    · rfl

/-- Removing an entry leaves no agent with an empty bucket map. -/
theorem byChat_ne_removeOne {f : InboxInFlight Key} (h : InFlightAgree f) (e : Nat) (a : Key) (m : InboxInFlightByChat Key)
    (hm : (f.removeOne e).inboxInFlightByAgent.lookup a = some m) : m.entries ≠ [] := by
  cases hown : f.inboxInFlightOwnersByEntryId e with
  | none => exact h.byChat_ne a m (by simpa [removeOne, hown] using hm)
  | some owner =>
    obtain ⟨a₀, ck₀⟩ := owner
    obtain ⟨m₀, b₀, hm₀, hb₀, _⟩ := bucket_of_owner h hown
    simp only [removeOne, hown, hm₀, hb₀] at hm
    refine byChat_ne_setByChat ?_ a₀ _ a m hm
    exact h.byChat_ne

/-- Removing an entry keeps the indexes in agreement. -/
theorem agree_removeOne {f : InboxInFlight Key} (h : InFlightAgree f) (e : Nat) : InFlightAgree (f.removeOne e) where
  owner_iff := by
    intro e' a ck
    rw [owners_removeOne, bucketIds_removeOne h, Finset.mem_erase, ← h.owner_iff]
    by_cases he : e' = e <;> simp [he]
  bucket_ok := by
    intro a ck b hb
    rw [bucket_removeOne h, Option.bind_eq_some_iff] at hb
    obtain ⟨b₀, hb₀, hb⟩ := hb
    split at hb
    · exact absurd hb (by simp)
    · rename_i hne
      obtain rfl := Option.some.inj hb
      exact ⟨hne, (h.bucket_ok a ck b₀ hb₀).2⟩
  byChat_ne := byChat_ne_removeOne h e

/-- Removing entries keeps the indexes in agreement and takes the entries out of every bucket. -/
theorem agree_remove {f : InboxInFlight Key} (h : InFlightAgree f) (es : List Nat) :
    InFlightAgree (f.removeInboxInFlight es) ∧
      ∀ a ck, (f.removeInboxInFlight es).bucketIds a ck = f.bucketIds a ck \ es.toFinset := by
  induction es generalizing f with
  | nil => exact ⟨h, by simp [removeInboxInFlight]⟩
  | cons e es ih =>
    obtain ⟨hagree, hids⟩ := ih (agree_removeOne h e)
    refine ⟨hagree, fun a ck => ?_⟩
    have hfold : f.removeInboxInFlight (e :: es) = (f.removeOne e).removeInboxInFlight es := rfl
    rw [hfold, hids, bucketIds_removeOne h]
    ext x
    simp only [Finset.mem_sdiff, Finset.mem_erase, List.toFinset_cons, Finset.mem_insert]
    tauto

/-! ## Filing an entry -/

/-- The buckets after an entry is filed. -/
theorem bucket_add (f : InboxInFlight Key) (a a' : Key) (c ck : Option Key) (e : Nat) :
    (f.addInboxInFlight a c e).bucket a' ck =
      if a' = a ∧ ck = c then
        some (let b := ((f.removeOne e).bucket a c).getD { chatId := c, entryIds := ∅ }
          { b with entryIds := insert e b.entryIds })
      else (f.removeOne e).bucket a' ck := by
  have hremove : f.removeInboxInFlight [e] = f.removeOne e := rfl
  simp only [addInboxInFlight, inboxChatKey, hremove, bucket]
  by_cases ha : a' = a
  · rw [ha, AList.lookup_insert, Option.bind_some]
    by_cases hck : ck = c
    · rw [hck, AList.lookup_insert, if_pos ⟨rfl, rfl⟩]
      cases (f.removeOne e).inboxInFlightByAgent.lookup a <;> rfl
    · rw [AList.lookup_insert_ne hck, if_neg (fun hcon => hck hcon.2)]
      cases (f.removeOne e).inboxInFlightByAgent.lookup a <;> rfl
  · rw [AList.lookup_insert_ne ha, if_neg (fun hcon => ha hcon.1)]

/-- The ids of the buckets after an entry is filed: it is in its bucket and in no other. -/
theorem bucketIds_add {f : InboxInFlight Key} (h : InFlightAgree f) (a a' : Key) (c ck : Option Key) (e : Nat) :
    (f.addInboxInFlight a c e).bucketIds a' ck =
      if a' = a ∧ ck = c then insert e (f.bucketIds a' ck) else (f.bucketIds a' ck).erase e := by
  have hids := bucketIds_removeOne h e
  have hins : ∀ s : Finset Nat, insert e (s.erase e) = insert e s := by
    intro s
    ext x
    by_cases hx : x = e <;> simp [hx]
  by_cases heq : a' = a ∧ ck = c
  · obtain ⟨rfl, rfl⟩ := heq
    rw [if_pos ⟨rfl, rfl⟩, ← hins, ← hids]
    simp only [bucketIds, bucket_add, and_self, if_true, Option.elim_some]
    cases (f.removeOne e).bucket a' ck <;> rfl
  · rw [if_neg heq, ← hids]
    simp only [bucketIds, bucket_add, if_neg heq]

/-- Filing an entry keeps the indexes in agreement. -/
theorem agree_add {f : InboxInFlight Key} (h : InFlightAgree f) (a : Key) (c : Option Key) (e : Nat) :
    InFlightAgree (f.addInboxInFlight a c e) where
  owner_iff := by
    intro e' a' ck
    have howners : (f.addInboxInFlight a c e).inboxInFlightOwnersByEntryId e' =
        if e' = e then some { agentId := a, chatKey := c } else f.inboxInFlightOwnersByEntryId e' := by
      have hremove : f.removeInboxInFlight [e] = f.removeOne e := rfl
      simp only [addInboxInFlight, inboxChatKey, hremove]
      by_cases he : e' = e
      · rw [if_pos he, if_pos he]
      · rw [if_neg he, if_neg he, owners_removeOne, if_neg he]
    rw [howners, bucketIds_add h]
    by_cases he : e' = e
    · subst he
      by_cases heq : a' = a ∧ ck = c
      · simp [heq]
      · have hne : ¬ (a = a' ∧ c = ck) := fun hcon => heq ⟨hcon.1.symm, hcon.2.symm⟩
        simp [heq, hne]
    · rw [if_neg he, h.owner_iff]
      split <;> simp [he]
  bucket_ok := by
    intro a' ck b hb
    have hold := (agree_removeOne h e).bucket_ok
    rw [bucket_add] at hb
    by_cases heq : a' = a ∧ ck = c
    · rw [if_pos heq] at hb
      obtain rfl := Option.some.inj hb
      refine ⟨Finset.insert_ne_empty _ _, ?_⟩
      cases hb₀ : (f.removeOne e).bucket a c with
      | none => exact heq.2.symm
      | some b₀ => exact (hold a c b₀ hb₀).2.trans heq.2.symm
    · rw [if_neg heq] at hb
      exact hold a' ck b hb
  byChat_ne := by
    intro a' m hm
    have hremove : f.removeInboxInFlight [e] = f.removeOne e := rfl
    simp only [addInboxInFlight, hremove] at hm
    by_cases ha : a' = a
    · rw [ha, AList.lookup_insert] at hm
      obtain rfl := Option.some.inj hm
      rw [AList.entries_insert]
      simp
    · rw [AList.lookup_insert_ne ha] at hm
      exact byChat_ne_removeOne h e a' m hm

/-! ## Clearing an agent -/

/-- The buckets after an agent is cleared. -/
theorem bucketIds_clear (f : InboxInFlight Key) (a a' : Key) (ck : Option Key) :
    (f.clearInboxInFlightForAgent a).bucketIds a' ck = if a' = a then ∅ else f.bucketIds a' ck := by
  unfold clearInboxInFlightForAgent bucketIds bucket
  cases hm : f.inboxInFlightByAgent.lookup a with
  | none =>
    by_cases ha : a' = a
    · subst ha
      simp [hm]
    · simp [ha]
  | some m =>
    by_cases ha : a' = a
    · subst ha
      simp
    · simp [ha]

/-- Clearing an agent takes away the owners of its entries and no other. -/
theorem owners_clear {f : InboxInFlight Key} (h : InFlightAgree f) (a : Key) (e : Nat) :
    (f.clearInboxInFlightForAgent a).inboxInFlightOwnersByEntryId e =
      if (f.inboxInFlightOwnersByEntryId e).map (·.agentId) = some a then none else f.inboxInFlightOwnersByEntryId e := by
  have hiff : (f.inboxInFlightOwnersByEntryId e).map (·.agentId) = some a ↔
      ∃ m, f.inboxInFlightByAgent.lookup a = some m ∧ (m.entries.any fun b => decide (e ∈ b.2.entryIds)) = true := by
    constructor
    · intro hagent
      obtain ⟨⟨a', ck⟩, hown, rfl⟩ := Option.map_eq_some_iff.mp hagent
      obtain ⟨m, b, hm, hb, hmem⟩ := bucket_of_owner h hown
      refine ⟨m, hm, List.any_eq_true.mpr ⟨⟨ck, b⟩, AList.mem_lookup_iff.mp hb, by simpa using hmem⟩⟩
    · rintro ⟨m, hm, hany⟩
      obtain ⟨⟨ck, b⟩, hb, hmem⟩ := List.any_eq_true.mp hany
      have hb' : m.lookup ck = some b := AList.mem_lookup_iff.mpr hb
      have hown : f.inboxInFlightOwnersByEntryId e = some { agentId := a, chatKey := ck } :=
        (h.owner_iff e a ck).mpr (by simpa [bucketIds, bucket, hm, hb'] using hmem)
      rw [hown]
      rfl
  unfold clearInboxInFlightForAgent
  cases hm : f.inboxInFlightByAgent.lookup a with
  | none =>
    rw [if_neg]
    rw [hiff]
    simp [hm]
  | some m =>
    simp only [hm, Option.some.injEq, exists_eq_left'] at hiff
    by_cases hany : (m.entries.any fun b => decide (e ∈ b.2.entryIds)) = true
    · rw [if_pos (hiff.mpr hany)]
      simp only [hany, if_true]
    · rw [if_neg (fun hcon => hany (hiff.mp hcon))]
      simp only [hany, if_false, Bool.false_eq_true]

/-- Clearing an agent keeps the indexes in agreement. -/
theorem agree_clear {f : InboxInFlight Key} (h : InFlightAgree f) (a : Key) : InFlightAgree (f.clearInboxInFlightForAgent a) where
  owner_iff := by
    intro e a' ck
    rw [owners_clear h, bucketIds_clear]
    by_cases ha : a' = a
    · subst ha
      rw [if_pos rfl]
      split
      · simp
      · rename_i hnone
        constructor
        · exact fun hown => absurd (by rw [hown]; rfl) hnone
        · exact fun hmem => absurd hmem (by simp)
    · rw [if_neg ha, ← h.owner_iff]
      split
      · rename_i hagent
        obtain ⟨⟨a'', ck'⟩, hown, rfl⟩ := Option.map_eq_some_iff.mp hagent
        simp [hown, Ne.symm ha]
      · rfl
  bucket_ok := by
    intro a' ck b hb
    unfold clearInboxInFlightForAgent at hb
    cases hm : f.inboxInFlightByAgent.lookup a with
    | none =>
      rw [hm] at hb
      exact h.bucket_ok a' ck b hb
    | some m =>
      rw [hm] at hb
      simp only [bucket] at hb
      by_cases ha : a' = a
      · subst ha
        simp at hb
      · rw [AList.lookup_erase_ne ha] at hb
        exact h.bucket_ok a' ck b hb
  byChat_ne := by
    intro a' m' hm'
    unfold clearInboxInFlightForAgent at hm'
    cases hm : f.inboxInFlightByAgent.lookup a with
    | none =>
      rw [hm] at hm'
      exact h.byChat_ne a' m' hm'
    | some m =>
      rw [hm] at hm'
      by_cases ha : a' = a
      · subst ha
        simp at hm'
      · simp only [AList.lookup_erase_ne ha] at hm'
        exact h.byChat_ne a' m' hm'

/-! ## Counts -/

/-- The count of a chat is the size of its bucket. -/
theorem countForChat_eq (f : InboxInFlight Key) (a : Key) (c : Option Key) :
    f.inboxInFlightCountForChat a c = (f.bucketIds a c).card := by
  unfold inboxInFlightCountForChat bucketIds inboxChatKey
  cases f.bucket a c <;> rfl

/-- The count of an agent after its bucket map is set. -/
theorem count_setByChat (f : InboxInFlight Key) (a a' : Key) (m : InboxInFlightByChat Key) :
    (f.setByChat a m).inboxInFlightCount a' = if a' = a then bucketTotal m else f.inboxInFlightCount a' := by
  unfold inboxInFlightCount
  rw [lookup_setByChat]
  by_cases ha : a' = a
  · simp only [ha, if_true]
    by_cases hm : m.entries = []
    · simp [hm, bucketTotal, AssocList.total]
    · simp [hm]
  · simp [ha]

/-- Removing an entry lets no count grow. -/
theorem count_removeOne_le {f : InboxInFlight Key} (h : InFlightAgree f) (e : Nat) (a : Key) :
    (f.removeOne e).inboxInFlightCount a ≤ f.inboxInFlightCount a := by
  cases hown : f.inboxInFlightOwnersByEntryId e with
  | none => simp [removeOne, hown]
  | some owner =>
    obtain ⟨a₀, ck₀⟩ := owner
    obtain ⟨m, b, hm, hb, _⟩ := bucket_of_owner h hown
    simp only [removeOne, hown, hm, hb]
    rw [count_setByChat]
    by_cases ha : a = a₀
    · rw [if_pos ha]
      have hcount : f.inboxInFlightCount a = bucketTotal m := by
        rw [ha]
        simp [inboxInFlightCount, hm]
      rw [hcount]
      unfold bucketTotal
      split
      · have herase := AssocList.total_erase (fun e => e.2.entryIds.card) m ck₀
        omega
      · have hinsert := AssocList.total_insert (fun e => e.2.entryIds.card) m ck₀ { b with entryIds := b.entryIds.erase e }
        have hweight : AssocList.weightAt (fun e => e.2.entryIds.card) m ck₀ = b.entryIds.card := by
          simp [AssocList.weightAt, hb]
        have hcard := Finset.card_erase_le (s := b.entryIds) (a := e)
        simp only at hinsert
        omega
    · rw [if_neg ha]
      rfl

/-- Removing entries lets no count grow. -/
theorem count_remove_le {f : InboxInFlight Key} (h : InFlightAgree f) (es : List Nat) (a : Key) :
    (f.removeInboxInFlight es).inboxInFlightCount a ≤ f.inboxInFlightCount a := by
  induction es generalizing f with
  | nil => exact le_rfl
  | cons e es ih => exact (ih (agree_removeOne h e)).trans (count_removeOne_le h e a)

/-- Filing an entry lets the count of its agent grow by one at most, and no other. -/
theorem count_add_le {f : InboxInFlight Key} (h : InFlightAgree f) (a a' : Key) (c : Option Key) (e : Nat) :
    (f.addInboxInFlight a c e).inboxInFlightCount a' ≤ f.inboxInFlightCount a' + if a' = a then 1 else 0 := by
  have hold := count_removeOne_le h e a'
  have hremove : f.removeInboxInFlight [e] = f.removeOne e := rfl
  refine le_trans ?_ (Nat.add_le_add_right hold _)
  simp only [addInboxInFlight, inboxChatKey, hremove, inboxInFlightCount]
  by_cases ha : a' = a
  · subst ha
    rw [AList.lookup_insert, if_pos rfl]
    simp only [bucketTotal]
    cases hm : (f.removeOne e).inboxInFlightByAgent.lookup a' with
    | none =>
      simp only [Option.getD_none]
      have hinsert := AssocList.total_insert (fun e => e.2.entryIds.card) (∅ : InboxInFlightByChat Key) c
        { chatId := c, entryIds := {e} }
      simp only [AssocList.weightAt, AList.lookup_empty, Option.elim_none, Finset.card_singleton] at hinsert
      exact hinsert.le
    | some m =>
      simp only [Option.getD_some]
      have hcard : ((m.lookup c).getD { chatId := c, entryIds := ∅ }).entryIds.card =
          AssocList.weightAt (fun e => e.2.entryIds.card) m c := by
        unfold AssocList.weightAt
        cases m.lookup c <;> rfl
      generalize (m.lookup c).getD { chatId := c, entryIds := ∅ } = b at hcard ⊢
      have hinsert := AssocList.total_insert (fun e => e.2.entryIds.card) m c { b with entryIds := insert e b.entryIds }
      have hgrow := Finset.card_insert_le e b.entryIds
      simp only at hinsert
      omega
  · rw [AList.lookup_insert_ne ha, if_neg ha]
    exact le_rfl

/-- Clearing an agent lets no count grow. -/
theorem count_clear_le (f : InboxInFlight Key) (a a' : Key) :
    (f.clearInboxInFlightForAgent a).inboxInFlightCount a' ≤ f.inboxInFlightCount a' := by
  unfold clearInboxInFlightForAgent
  cases hm : f.inboxInFlightByAgent.lookup a with
  | none => exact le_rfl
  | some m =>
    simp only [inboxInFlightCount]
    by_cases ha : a' = a
    · subst ha
      simp
    · simp [AList.lookup_erase_ne ha]

end InFlightAux

end FirstTree
