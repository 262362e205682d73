import Mathlib.Data.List.Perm.Subperm
import Mathlib.Data.Finset.Max
import FirstTree.Server.Inbox

/-!
# What the claims take

The rows a claim returns: how many, of which chats, and how many of one chat. The fair claim takes no more rows of a chat than the
chat's budget, because the row with the largest id among them has a chat-local rank that counts them all.
-/

namespace FirstTree

open Inbox

variable {Key : Type} [DecidableEq Key]

namespace InboxAux

/-! ## Rows and their order -/

omit [DecidableEq Key] in
/-- The rows of a table are distinct. -/
theorem rows_nodup (t : InboxTable Key) : t.rows.Nodup :=
  List.Nodup.of_map _ t.keys_nodup

omit [DecidableEq Key] in
/-- The selected rows are distinct, in whatever order. -/
theorem selectBy_nodup (t : InboxTable Key) (le : InboxEntry Key → InboxEntry Key → Prop) [DecidableRel le]
    (p : InboxEntry Key → Bool) : (t.selectBy le p).Nodup :=
  (List.perm_insertionSort le _).nodup_iff.mpr ((rows_nodup t).filter _)

omit [DecidableEq Key] in
/-- A claim returns one row for each target. -/
theorem claim_length (t : InboxTable Key) (targets : List (InboxEntry Key)) (now : Nat) :
    (claim t targets now).1.length = targets.length := by
  simp [claim]

omit [DecidableEq Key] in
/-- A claimed row is a target marked delivered. -/
theorem mem_claim {t : InboxTable Key} {targets : List (InboxEntry Key)} {now : Nat} {e : InboxEntry Key} :
    e ∈ (claim t targets now).1 ↔ ∃ r ∈ targets, markDelivered now r = e := by
  simp [claim]

/-- A claim returns, of each chat, as many rows as there are targets of it. -/
theorem claim_count (t : InboxTable Key) (targets : List (InboxEntry Key)) (now : Nat) (c : Option Key) :
    ((claim t targets now).1.filter fun e => decide (e.chatId = c)).length =
      (targets.filter fun e => decide (e.chatId = c)).length := by
  simp only [claim]
  rw [((List.perm_insertionSort byId _).filter _).length_eq, List.filter_map, List.length_map]
  rfl

/-! ## Chat-scoped claims -/

/-- A chat-scoped claim takes no more rows than its limit, and only rows of its chat. -/
theorem forChat_bounds (t : InboxTable Key) (inboxId chatId : Key) (limit : Nat) (locked : Nat → Bool) (now : Nat) :
    (claimBacklogForPushForChat t inboxId chatId limit locked now).1.length ≤ limit ∧
      ∀ e ∈ (claimBacklogForPushForChat t inboxId chatId limit locked now).1, e.chatId = some chatId := by
  refine ⟨?_, ?_⟩
  · simp only [claimBacklogForPushForChat, pollInboxInner]
    rw [claim_length]
    exact List.length_take_le _ _
  · intro e he
    simp only [claimBacklogForPushForChat, pollInboxInner] at he
    obtain ⟨r, hr, rfl⟩ := mem_claim.mp he
    have hsel := List.mem_of_mem_take hr
    simp only [Table.mem_selectBy, Bool.and_eq_true, decide_eq_true_eq] at hsel
    exact hsel.2.2

/-! ## Fair claims -/

/-- Distinct pending notify rows of one chat, with ranks within a bound, are no more than the bound. -/
theorem length_le_of_rank_le (t : InboxTable Key) (inboxId : Key) (c : Option Key) {bound : Nat} {l : List (InboxEntry Key)}
    (hnodup : l.Nodup) (hl : ∀ e ∈ l, e ∈ t.rows ∧ isPendingNotify inboxId e = true ∧ e.chatId = c)
    (hrank : ∀ e ∈ l, chatRank t inboxId e ≤ bound) : l.length ≤ bound := by
  by_cases hempty : l = []
  · simp [hempty]
  · obtain ⟨m, hm, hmax⟩ := l.toFinset.exists_max_image (·.id) (by simpa using hempty)
    rw [List.mem_toFinset] at hm
    refine le_trans ?_ (hrank m hm)
    refine List.Subperm.length_le (List.subperm_of_subset hnodup fun e he => ?_)
    obtain ⟨hrow, hpending, hchat⟩ := hl e he
    have hle : e.id ≤ m.id := hmax e (by simpa using he)
    rw [Table.mem_select]
    refine ⟨hrow, ?_⟩
    simp [hpending, hchat, (hl m hm).2.2, hle]

/-- A row a fair claim may take is a pending notify row within its chat's budget. -/
theorem mem_fairEligible {t : InboxTable Key} {inboxId : Key} {limit dflt : Nat} {budgets : ChatBudgets Key} {e : InboxEntry Key}
    (he : e ∈ fairEligible t inboxId limit dflt budgets) :
    e ∈ t.rows ∧ isPendingNotify inboxId e = true ∧ chatRank t inboxId e ≤ remainingFor budgets dflt e.chatId := by
  have hsel := List.mem_of_mem_take he
  simpa using hsel

/-- A fair claim takes no more rows than its limit, and of each chat no more than the chat's budget. -/
theorem fair_bounds (t : InboxTable Key) (inboxId : Key) (limit dflt : Nat) (budgets : ChatBudgets Key) (locked : Nat → Bool)
    (now : Nat) :
    (claimBacklogForPushFair t inboxId limit dflt budgets locked now).1.length ≤ limit ∧
      ∀ c, ((claimBacklogForPushFair t inboxId limit dflt budgets locked now).1.filter fun e => decide (e.chatId = c)).length ≤
        remainingFor budgets dflt c := by
  unfold claimBacklogForPushFair
  split
  · simp
  · simp only
    split
    · simp
    · refine ⟨?_, fun c => ?_⟩
      · rw [claim_length]
        exact (List.length_filter_le _ _).trans (List.length_take_le _ _)
      · rw [claim_count]
        have hnodup : (fairEligible t inboxId limit dflt budgets).Nodup :=
          (selectBy_nodup t _ _).sublist (List.take_sublist _ _)
        have hl : ∀ e ∈ ((fairEligible t inboxId limit dflt budgets).filter fun row => !locked row.id).filter
            (fun e => decide (e.chatId = c)), e ∈ fairEligible t inboxId limit dflt budgets ∧ e.chatId = c := by
          intro e he
          simp only [List.mem_filter, decide_eq_true_eq] at he
          exact ⟨he.1.1, he.2⟩
        refine length_le_of_rank_le t inboxId c ((hnodup.filter _).filter _) (fun e he => ?_) (fun e he => ?_)
        · obtain ⟨he, hc⟩ := hl e he
          obtain ⟨hrow, hpending, _⟩ := mem_fairEligible he
          exact ⟨hrow, hpending, hc⟩
        · obtain ⟨he, hc⟩ := hl e he
          rw [← hc]
          exact (mem_fairEligible he).2.2

/-! ## How rows evolve -/

/-- The row keeps its identity, a delivery date it has, and its ACK. -/
structure RowEvolves (r r' : InboxEntry Key) : Prop where
  id_eq : r'.id = r.id
  inboxId_eq : r'.inboxId = r.inboxId
  messageId_eq : r'.messageId = r.messageId
  chatId_eq : r'.chatId = r.chatId
  notify_eq : r'.notify = r.notify
  delivered : r.deliveredAt.isSome = true → r'.deliveredAt.isSome = true
  acked : r.status = .acked → r'.status = .acked

/-- A delivered row has a delivery date. -/
def DeliveredDated (t : InboxTable Key) : Prop :=
  ∀ r ∈ t.rows, r.status = .delivered → r.deliveredAt.isSome = true

/-- Every row of the first table evolves to a row of the second, and delivered rows stay dated. -/
structure TableGrows (t t' : InboxTable Key) : Prop where
  rows : ∀ r ∈ t.rows, ∃ r' ∈ t'.rows, RowEvolves r r'
  dated : DeliveredDated t → DeliveredDated t'

/-- A table that grows by no row. -/
structure TableEvolves (t t' : InboxTable Key) : Prop extends TableGrows t t' where
  ids_eq : t'.rows.map (·.id) = t.rows.map (·.id)

omit [DecidableEq Key] in
/-- A row evolves to itself. -/
theorem rowEvolves_refl (r : InboxEntry Key) : RowEvolves r r :=
  ⟨rfl, rfl, rfl, rfl, rfl, id, id⟩

omit [DecidableEq Key] in
/-- A table evolves to itself. -/
theorem tableEvolves_refl (t : InboxTable Key) : TableEvolves t t :=
  ⟨⟨fun r hr => ⟨r, hr, rowEvolves_refl r⟩, id⟩, rfl⟩

omit [DecidableEq Key] in
/-- An update evolves a table when it evolves each row it applies to and dates the rows it marks delivered. -/
theorem tableEvolves_updateWhere (t : InboxTable Key) {p : InboxEntry Key → Bool} {f : InboxEntry Key → InboxEntry Key}
    (hf : ∀ r, (f r).id = r.id) (hrow : ∀ r ∈ t.rows, p r = true → RowEvolves r (f r))
    (hdated : ∀ r ∈ t.rows, p r = true → (f r).status = .delivered → (f r).deliveredAt.isSome = true) :
    TableEvolves t (t.updateWhere p f hf) where
  rows := by
    intro r hr
    refine ⟨if p r then f r else r, Table.mem_updateWhere.mpr ⟨r, hr, rfl⟩, ?_⟩
    split
    · rename_i hp
      exact hrow r hr hp
    · exact rowEvolves_refl r
  dated := by
    intro h r' hr' hstatus
    obtain ⟨r, hr, rfl⟩ := Table.mem_updateWhere.mp hr'
    by_cases hp : p r = true
    · rw [if_pos hp] at hstatus ⊢
      exact hdated r hr hp hstatus
    · rw [if_neg hp] at hstatus ⊢
      exact h r hr hstatus
  ids_eq := Table.updateWhere_keys t hf

omit [DecidableEq Key] in
/-- A claim of pending rows evolves the table. -/
theorem tableEvolves_claim (t : InboxTable Key) {targets : List (InboxEntry Key)} (now : Nat)
    (htargets : ∀ r ∈ targets, r ∈ t.rows ∧ r.status = .pending) : TableEvolves t (claim t targets now).2 := by
  show TableEvolves t (t.updateWhere (fun row => decide (row.id ∈ targets.map (·.id))) (markDelivered now) fun _ => rfl)
  refine tableEvolves_updateWhere t _ ?_ (fun _ _ _ _ => rfl)
  intro r hr hp
  obtain ⟨r₀, hr₀, hid⟩ := List.mem_map.mp (of_decide_eq_true hp)
  have hsame : r₀ = r := Table.eq_of_key_eq (htargets r₀ hr₀).1 hr hid
  have hpending : r.status = .pending := hsame ▸ (htargets r₀ hr₀).2
  exact ⟨rfl, rfl, rfl, rfl, rfl, fun _ => rfl, fun hacked => absurd (hpending.symm.trans hacked) (by simp)⟩

/-- A pending notify row is pending. -/
theorem pending_of_isPendingNotify {inboxId : Key} {r : InboxEntry Key} (h : isPendingNotify inboxId r = true) :
    r.inboxId = inboxId ∧ r.status = .pending ∧ r.notify = true := by
  simp only [isPendingNotify, Bool.and_eq_true, decide_eq_true_eq] at h
  exact ⟨h.1.1, h.1.2, h.2⟩

/-- The targets of a poll are pending notify rows of the table. -/
theorem tableEvolves_poll (t : InboxTable Key) (inboxId : Key) (limit : Nat) (chatId : Option Key) (locked : Nat → Bool)
    (now : Nat) : TableEvolves t (pollInboxInner t inboxId limit chatId locked now).2 := by
  refine tableEvolves_claim t now fun r hr => ?_
  have hsel := List.mem_of_mem_take hr
  simp only [Table.mem_selectBy, Bool.and_eq_true] at hsel
  exact ⟨hsel.1, (pending_of_isPendingNotify hsel.2.1.1).2.1⟩

/-- A fair claim evolves the table. -/
theorem tableEvolves_fair (t : InboxTable Key) (inboxId : Key) (limit dflt : Nat) (budgets : ChatBudgets Key)
    (locked : Nat → Bool) (now : Nat) : TableEvolves t (claimBacklogForPushFair t inboxId limit dflt budgets locked now).2 := by
  unfold claimBacklogForPushFair
  split
  · exact tableEvolves_refl t
  · simp only
    split
    · exact tableEvolves_refl t
    · refine tableEvolves_claim t now fun r hr => ?_
      obtain ⟨hrow, hpending, _⟩ := mem_fairEligible (List.mem_of_mem_filter hr)
      exact ⟨hrow, (pending_of_isPendingNotify hpending).2.1⟩

omit [DecidableEq Key] in
/-- Resetting delivered rows evolves the table. -/
theorem tableEvolves_reset (t : InboxTable Key) {p : InboxEntry Key → Bool} (hp : ∀ r, p r = true → r.status = .delivered) :
    TableEvolves t (t.updateWhere p markPending fun _ => rfl) := by
  refine tableEvolves_updateWhere t _ (fun r _ hpr => ?_) (fun _ _ _ h => ?_)
  · exact ⟨rfl, rfl, rfl, rfl, rfl, id, fun hacked => absurd ((hp r hpr).symm.trans hacked) (by simp)⟩
  · exact absurd h (by simp [markPending])

/-- A recovery evolves the table. -/
theorem tableEvolves_recover (t : InboxTable Key) (inboxId : Key) (chatId : Option Key) :
    TableEvolves t (recoverUnackedForScope t inboxId chatId).2 :=
  tableEvolves_reset t fun r hp => by
    simp only [Bool.and_eq_true, decide_eq_true_eq] at hp
    exact hp.2

/-- The reset of a bind evolves the table. -/
theorem tableEvolves_resetDelivered (t : InboxTable Key) (inboxIds : List Key) :
    TableEvolves t (resetDeliveredForInboxes t inboxIds) :=
  tableEvolves_reset t fun r hp => by
    simp only [Bool.and_eq_true, decide_eq_true_eq] at hp
    exact hp.2

omit [DecidableEq Key] in
/-- Marking rows acked evolves the table. -/
theorem tableEvolves_markAcked (t : InboxTable Key) (p : InboxEntry Key → Bool) (now : Nat) :
    TableEvolves t (t.updateWhere p (markAcked now) fun _ => rfl) := by
  refine tableEvolves_updateWhere t _ (fun _ _ _ => ?_) (fun _ _ _ h => ?_)
  · exact ⟨rfl, rfl, rfl, rfl, rfl, id, fun _ => rfl⟩
  · exact absurd h (by simp [markAcked])

omit [DecidableEq Key] in
/-- Evolutions compose. -/
theorem tableEvolves_trans {t t' t'' : InboxTable Key} (h : TableEvolves t t') (h' : TableEvolves t' t'') : TableEvolves t t'' where
  rows := by
    intro r hr
    obtain ⟨r', hr', hrow⟩ := h.rows r hr
    obtain ⟨r'', hr'', hrow'⟩ := h'.rows r' hr'
    exact ⟨r'', hr'', hrow'.id_eq.trans hrow.id_eq, hrow'.inboxId_eq.trans hrow.inboxId_eq,
      hrow'.messageId_eq.trans hrow.messageId_eq, hrow'.chatId_eq.trans hrow.chatId_eq, hrow'.notify_eq.trans hrow.notify_eq,
      fun hd => hrow'.delivered (hrow.delivered hd), fun ha => hrow'.acked (hrow.acked ha)⟩
  dated := fun hd => h'.dated (h.dated hd)
  ids_eq := h'.ids_eq.trans h.ids_eq

omit [DecidableEq Key] in
/-- A table that evolves has no row that does not evolve from a row before. -/
theorem TableEvolves.back {t t' : InboxTable Key} (h : TableEvolves t t') {r' : InboxEntry Key} (hr' : r' ∈ t'.rows) :
    ∃ r ∈ t.rows, RowEvolves r r' := by
  have hid : r'.id ∈ t.rows.map (·.id) := h.ids_eq ▸ List.mem_map_of_mem hr'
  obtain ⟨r, hr, hrid⟩ := List.mem_map.mp hid
  obtain ⟨r'', hr'', hrow⟩ := h.rows r hr
  have hsame : r'' = r' := Table.eq_of_key_eq hr'' hr' (hrow.id_eq.trans hrid)
  exact ⟨r, hr, hsame ▸ hrow⟩

omit [DecidableEq Key] in
/-- An insertion of a new pending row grows the table. -/
theorem tableGrows_insert (t : InboxTable Key) {r : InboxEntry Key} (hr : r.id ∉ t.rows.map (·.id)) (hpending : r.status = .pending) :
    TableGrows t (t.insert r hr) where
  rows := fun r₀ hr₀ => ⟨r₀, Table.mem_insert.mpr (Or.inl hr₀), rowEvolves_refl r₀⟩
  dated := by
    intro hd r' hr' hstatus
    rcases Table.mem_insert.mp hr' with h | rfl
    · exact hd r' h hstatus
    · exact absurd (hpending.symm.trans hstatus) (by simp)

end InboxAux

end FirstTree
