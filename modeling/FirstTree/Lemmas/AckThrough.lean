import FirstTree.Lemmas.Inbox

/-!
# What an ACK-through does to the table

An ACK is refused and changes nothing, finds its prefix committed and changes nothing, or commits the delivered and the reset rows
of its prefix together with the pending silent rows of the partition.
-/

namespace FirstTree

open Inbox

variable {Key : Type} [DecidableEq Key]

/-- The id of a committable row of a prefix: delivered, or reset after a delivery. -/
def Committable (entry row : InboxEntry Key) : Prop :=
  row.inboxId = entry.inboxId ∧ row.chatId = entry.chatId ∧ row.notify = true ∧ row.id ≤ entry.id ∧
    (row.status = .delivered ∨ (row.status = .pending ∧ row.deliveredAt.isSome = true))

/-- The silent rows an ACK drains: pending, in the partition of the entry and up to it. -/
def DrainedSilent (entry row : InboxEntry Key) : Prop :=
  row.inboxId = entry.inboxId ∧ row.chatId = entry.chatId ∧ row.notify = false ∧ row.id ≤ entry.id ∧ row.status = .pending

/-- The notify rows of the entry's partition up to it are all acked. -/
def PrefixAcked (t : InboxTable Key) (entryId : Nat) : Prop :=
  ∀ entry ∈ t.rows, entry.id = entryId → ∀ row ∈ t.rows, row.inboxId = entry.inboxId → row.chatId = entry.chatId →
    row.notify = true → row.id ≤ entryId → row.status = .acked

namespace AckAux

/-- The prefix of an entry: the notify rows of its partition up to it. -/
theorem mem_prefixRows {t : InboxTable Key} {entry row : InboxEntry Key} :
    row ∈ prefixRows t entry ↔
      row ∈ t.rows ∧ row.inboxId = entry.inboxId ∧ row.chatId = entry.chatId ∧ row.notify = true ∧ row.id ≤ entry.id := by
  simp only [prefixRows, Table.mem_selectBy, samePartition, Bool.and_eq_true, decide_eq_true_eq, and_assoc]

/-- The committable ids are those of the committable rows. -/
theorem mem_committableIds {t : InboxTable Key} {entry : InboxEntry Key} {id : Nat} :
    id ∈ committableIds t entry ↔ ∃ row ∈ t.rows, row.id = id ∧ Committable entry row := by
  simp only [committableIds, List.mem_append, List.mem_map, List.mem_filter, mem_prefixRows, decide_eq_true_eq, isResetDeliveredRow,
    Bool.and_eq_true, Committable]
  constructor
  · rintro (⟨row, ⟨⟨hrow, h₁, h₂, h₃, h₄⟩, hs⟩, rfl⟩ | ⟨row, ⟨⟨hrow, h₁, h₂, h₃, h₄⟩, hs⟩, rfl⟩)
    · exact ⟨row, hrow, rfl, h₁, h₂, h₃, h₄, Or.inl hs⟩
    · exact ⟨row, hrow, rfl, h₁, h₂, h₃, h₄, Or.inr hs⟩
  · rintro ⟨row, hrow, rfl, h₁, h₂, h₃, h₄, hs | hs⟩
    · exact Or.inl ⟨row, ⟨⟨hrow, h₁, h₂, h₃, h₄⟩, hs⟩, rfl⟩
    · exact Or.inr ⟨row, ⟨⟨hrow, h₁, h₂, h₃, h₄⟩, hs⟩, rfl⟩

/-- The rows an accepted ACK returns: the through entry is in the partition of the entry, and the ids are the committable ones. -/
theorem updatedRows_spec {t : InboxTable Key} {entry : InboxEntry Key} (hmem : entry ∈ t.rows) {entryId : Nat}
    (hid : entry.id = entryId) (now : Nat) :
    let updated := (t.select fun row => decide (row.id ∈ committableIds t entry) &&
      decide (row.status = .delivered ∨ row.status = .pending)).map (markAcked now)
    let throughEntry := (updated.find? fun row => row.id = entryId).getD entry
    (throughEntry.inboxId = entry.inboxId ∧ throughEntry.chatId = entry.chatId) ∧
      ∀ id, id ∈ updated.map (·.id) ↔ id ∈ committableIds t entry := by
  intro updated throughEntry
  have hupdated : ∀ row, row ∈ updated ↔ ∃ r ∈ t.rows, r.id ∈ committableIds t entry ∧
      (r.status = .delivered ∨ r.status = .pending) ∧ markAcked now r = row := by
    intro row
    simp only [updated, List.mem_map, Table.mem_select, Bool.and_eq_true, decide_eq_true_eq, and_assoc]
  constructor
  · cases hfind : updated.find? fun row => row.id = entryId with
    | none => simp [throughEntry, hfind]
    | some row =>
      obtain ⟨r, hr, _, _, rfl⟩ := (hupdated row).mp (List.mem_of_find?_eq_some hfind)
      have hfound := List.find?_some hfind
      have hrid : r.id = entryId := of_decide_eq_true hfound
      have hsame : r = entry := Table.eq_of_key_eq hr hmem (hrid.trans hid.symm)
      simp [throughEntry, hfind, markAcked, hsame]
  · intro id
    simp only [List.mem_map]
    constructor
    · rintro ⟨row, hrow, rfl⟩
      obtain ⟨r, _, hin, _, rfl⟩ := (hupdated row).mp hrow
      exact hin
    · intro hin
      obtain ⟨r, hr, rfl, hcommit⟩ := mem_committableIds.mp hin
      have hstatus : r.status = .delivered ∨ r.status = .pending := hcommit.2.2.2.2.imp_right And.left
      exact ⟨markAcked now r, (hupdated _).mpr ⟨r, hr, hin, hstatus, rfl⟩, rfl⟩

/-- What an ACK answers and does: it is refused and the table stays, the prefix is committed already and the table stays, or every
committable row is in the socket's snapshot and the prefix is committed. -/
theorem ackThrough_cases (t : InboxTable Key) (entryId : Nat) (inboxIds : List Key) (snapshot : Finset Nat) (now : Nat) :
    (∃ reason, ackThroughEntryIdForBoundAgents t entryId inboxIds snapshot now = (.rejected reason, t)) ∨
    ∃ entry ∈ t.rows, entry.id = entryId ∧ entry.inboxId ∈ inboxIds ∧ entry.notify = true ∧
      (∀ row ∈ t.rows, row.inboxId = entry.inboxId → row.chatId = entry.chatId → row.notify = true → row.id ≤ entryId →
        row.status = .acked ∨ Committable entry row) ∧
      ((committableIds t entry = [] ∧
          ackThroughEntryIdForBoundAgents t entryId inboxIds snapshot now = (.ok entry .already_acked [], t)) ∨
        (committableIds t entry ≠ [] ∧ (∀ id ∈ committableIds t entry, id ∈ snapshot) ∧
          ∃ throughEntry disposition ackedEntryIds,
            ackThroughEntryIdForBoundAgents t entryId inboxIds snapshot now =
              (.ok throughEntry disposition ackedEntryIds, commitPrefix t entry (committableIds t entry) now) ∧
            throughEntry.inboxId = entry.inboxId ∧ throughEntry.chatId = entry.chatId ∧
            ∀ id, id ∈ ackedEntryIds ↔ id ∈ committableIds t entry)) := by
  unfold ackThroughEntryIdForBoundAgents
  split
  · exact Or.inl ⟨_, rfl⟩
  · rename_i entry hfind
    have hmem : entry ∈ t.rows := List.mem_of_find?_eq_some hfind
    have hfound := List.find?_some hfind
    simp only [Bool.and_eq_true, decide_eq_true_eq] at hfound
    obtain ⟨hid, hinbox⟩ := hfound
    by_cases hnotify : entry.notify = true
    · by_cases hgap : ((prefixRows t entry).any fun row =>
          row.status ≠ .acked && row.status ≠ .delivered && !isResetDeliveredRow row) = true
      · simp only [hnotify, Bool.not_true, Bool.false_eq_true, if_false, if_pos hgap]
        exact Or.inl ⟨_, rfl⟩
      · have hprefix : ∀ row ∈ t.rows, row.inboxId = entry.inboxId → row.chatId = entry.chatId → row.notify = true →
            row.id ≤ entryId → row.status = .acked ∨ Committable entry row := by
          intro row hrow h₁ h₂ h₃ h₄
          rw [← hid] at h₄
          have hrowPrefix : row ∈ prefixRows t entry := mem_prefixRows.mpr ⟨hrow, h₁, h₂, h₃, h₄⟩
          by_contra hcon
          simp only [not_or, Committable, h₁, h₂, h₃, h₄, true_and] at hcon
          refine hgap (List.any_eq_true.mpr ⟨row, hrowPrefix, ?_⟩)
          obtain ⟨hacked, hdelivered, hreset⟩ := hcon
          simp only [ne_eq, hacked, hdelivered, not_false_eq_true, decide_true, Bool.true_and, isResetDeliveredRow,
            Bool.not_eq_true', Bool.and_eq_false_imp, decide_eq_true_eq]
          intro hpending
          simpa using fun hsome => hreset ⟨hpending, hsome⟩
        simp only [hnotify, Bool.not_true, Bool.false_eq_true, if_false, if_neg hgap]
        by_cases hids : committableIds t entry = []
        · rw [if_pos hids]
          exact Or.inr ⟨entry, hmem, hid, hinbox, hnotify, hprefix, Or.inl ⟨hids, rfl⟩⟩
        · rw [if_neg hids]
          by_cases hsnap : ((committableIds t entry).any fun id => id ∉ snapshot) = true
          · rw [if_pos hsnap]
            exact Or.inl ⟨_, rfl⟩
          · rw [if_neg hsnap]
            have hin : ∀ id ∈ committableIds t entry, id ∈ snapshot := by
              intro id hid'
              by_contra hnot
              exact hsnap (List.any_eq_true.mpr ⟨id, hid', by simpa using hnot⟩)
            obtain ⟨hthrough, hacked⟩ := updatedRows_spec hmem hid now
            exact Or.inr ⟨entry, hmem, hid, hinbox, hnotify, hprefix,
              Or.inr ⟨hids, hin, _, _, _, rfl, hthrough.1, hthrough.2, hacked⟩⟩
    · simp only [hnotify]
      exact Or.inl ⟨_, rfl⟩

/-- A row of the table has a committable id and an unacked status exactly when it is committable. -/
theorem committable_iff {t : InboxTable Key} {entry row : InboxEntry Key} (hrow : row ∈ t.rows) :
    (decide (row.id ∈ committableIds t entry) && decide (row.status = .delivered ∨ row.status = .pending)) = true ↔
      Committable entry row := by
  simp only [Bool.and_eq_true, decide_eq_true_eq]
  constructor
  · rintro ⟨hin, _⟩
    obtain ⟨r, hr, hid, hcommit⟩ := mem_committableIds.mp hin
    have hsame : r = row := Table.eq_of_key_eq hr hrow hid
    exact hsame ▸ hcommit
  · intro hcommit
    exact ⟨mem_committableIds.mpr ⟨row, hrow, rfl, hcommit⟩, hcommit.2.2.2.2.imp_right And.left⟩

/-- A row meets the drain's condition exactly when it is a drained silent row. -/
theorem drainedSilent_iff {entry row : InboxEntry Key} :
    (samePartition entry row && decide (row.status = .pending) && !row.notify && decide (row.id ≤ entry.id)) = true ↔
      DrainedSilent entry row := by
  simp only [samePartition, Bool.and_eq_true, decide_eq_true_eq, Bool.not_eq_true', DrainedSilent]
  tauto

/-- The row after an accepted ACK: acked when it was committable or a drained silent row, and otherwise as it was. -/
theorem row_commitPrefix {t : InboxTable Key} {entry row row' : InboxEntry Key} {now : Nat} (hrow : row ∈ t.rows)
    (hrow' : row' ∈ (commitPrefix t entry (committableIds t entry) now).rows) (hid : row.id = row'.id) :
    ((Committable entry row ∨ DrainedSilent entry row) ∧ row' = markAcked now row) ∨
      (¬ Committable entry row ∧ ¬ DrainedSilent entry row ∧ row' = row) := by
  obtain ⟨row₁, hrow₁, heq⟩ := Table.mem_updateWhere.mp hrow'
  have hid₁ : row.id = row₁.id := by
    rw [hid, heq]
    split <;> rfl
  have h₁ := Table.updateWhere_eq hrow hrow₁ hid₁
  by_cases hcommit : Committable entry row
  · rw [if_pos ((committable_iff hrow).mpr hcommit)] at h₁
    have hnot : ¬ DrainedSilent entry row₁ := by
      rintro ⟨_, _, _, _, hpending⟩
      exact absurd hpending (by simp [h₁, markAcked])
    rw [if_neg (fun hcon => hnot (drainedSilent_iff.mp hcon))] at heq
    exact Or.inl ⟨Or.inl hcommit, heq.trans h₁⟩
  · rw [if_neg (fun hcon => hcommit ((committable_iff hrow).mp hcon))] at h₁
    subst h₁
    by_cases hsilent : DrainedSilent entry row₁
    · rw [if_pos (drainedSilent_iff.mpr hsilent)] at heq
      exact Or.inl ⟨Or.inr hsilent, heq⟩
    · rw [if_neg (fun hcon => hsilent (drainedSilent_iff.mp hcon))] at heq
      exact Or.inr ⟨hcommit, hsilent, heq⟩

/-- An ACK evolves the table. -/
theorem tableEvolves_ack (t : InboxTable Key) (entryId : Nat) (inboxIds : List Key) (snapshot : Finset Nat) (now : Nat) :
    InboxAux.TableEvolves t (ackThroughEntryIdForBoundAgents t entryId inboxIds snapshot now).2 := by
  rcases ackThrough_cases t entryId inboxIds snapshot now with ⟨reason, heq⟩ | ⟨entry, _, _, _, _, _, hcase⟩
  · rw [heq]
    exact InboxAux.tableEvolves_refl t
  · rcases hcase with ⟨_, heq⟩ | ⟨_, _, _, _, _, heq, _⟩
    · rw [heq]
      exact InboxAux.tableEvolves_refl t
    · rw [heq]
      exact InboxAux.tableEvolves_trans (InboxAux.tableEvolves_markAcked t _ now) (InboxAux.tableEvolves_markAcked _ _ now)

/-- An ACK of a committed prefix changes no row. -/
theorem ack_of_prefixAcked {t : InboxTable Key} {entryId : Nat} (h : PrefixAcked t entryId) (inboxIds : List Key)
    (snapshot : Finset Nat) (now : Nat) : (ackThroughEntryIdForBoundAgents t entryId inboxIds snapshot now).2 = t := by
  rcases ackThrough_cases t entryId inboxIds snapshot now with ⟨reason, heq⟩ | ⟨entry, hmem, hid, _, _, _, hcase⟩
  · rw [heq]
  · rcases hcase with ⟨_, heq⟩ | ⟨hne, _⟩
    · rw [heq]
    · obtain ⟨id, hin⟩ := List.exists_mem_of_ne_nil _ hne
      obtain ⟨row, hrow, rfl, h₁, h₂, h₃, h₄, hstatus⟩ := mem_committableIds.mp hin
      have hacked := h entry hmem hid row hrow h₁ h₂ h₃ (hid ▸ h₄)
      rcases hstatus with hstatus | ⟨hstatus, _⟩ <;> exact absurd (hacked.symm.trans hstatus) (by simp)

/-- An accepted ACK commits its prefix. -/
theorem prefixAcked_of_ok {t t' : InboxTable Key} {entryId : Nat} {inboxIds : List Key} {snapshot : Finset Nat} {now : Nat}
    {throughEntry : InboxEntry Key} {disposition : AckDisposition} {ackedEntryIds : List Nat}
    (h : ackThroughEntryIdForBoundAgents t entryId inboxIds snapshot now = (.ok throughEntry disposition ackedEntryIds, t')) :
    PrefixAcked t' entryId := by
  rcases ackThrough_cases t entryId inboxIds snapshot now with ⟨reason, heq⟩ | ⟨entry, hmem, hid, _, _, hprefix, hcase⟩
  · rw [heq] at h
    exact absurd (congrArg Prod.fst h) (by simp)
  · rcases hcase with ⟨hnil, heq⟩ | ⟨_, _, _, _, _, heq, _⟩
    · obtain rfl : t = t' := congrArg Prod.snd (heq.symm.trans h)
      intro e he heid row hrow h₁ h₂ h₃ h₄
      obtain rfl : e = entry := Table.eq_of_key_eq he hmem (heid.trans hid.symm)
      rcases hprefix row hrow h₁ h₂ h₃ h₄ with hacked | hcommit
      · exact hacked
      · have hin := mem_committableIds.mpr ⟨row, hrow, rfl, hcommit⟩
        rw [hnil] at hin
        exact absurd hin (by simp)
    · obtain rfl : commitPrefix t entry (committableIds t entry) now = t' := congrArg Prod.snd (heq.symm.trans h)
      intro e' he' heid row' hrow' h₁ h₂ h₃ h₄
      have hback : ∀ r' ∈ (commitPrefix t entry (committableIds t entry) now).rows, ∃ r ∈ t.rows, r.id = r'.id := by
        intro r' hr'
        obtain ⟨r₁, hr₁, rfl⟩ := Table.mem_updateWhere.mp hr'
        obtain ⟨r, hr, rfl⟩ := Table.mem_updateWhere.mp hr₁
        refine ⟨r, hr, ?_⟩
        split <;> split <;> rfl
      obtain ⟨e, he, hee⟩ := hback e' he'
      obtain ⟨row, hrow, hrr⟩ := hback row' hrow'
      obtain rfl : e = entry := Table.eq_of_key_eq he hmem (hee.trans (heid.trans hid.symm))
      have he'' : e'.inboxId = e.inboxId ∧ e'.chatId = e.chatId := by
        rcases row_commitPrefix he he' hee with ⟨_, rfl⟩ | ⟨_, _, rfl⟩ <;> exact ⟨rfl, rfl⟩
      rcases row_commitPrefix hrow hrow' hrr with ⟨_, rfl⟩ | ⟨hnot, _, rfl⟩
      · rfl
      · rcases hprefix row' hrow (h₁.trans he''.1) (h₂.trans he''.2) h₃ h₄ with hacked | hcommit
        · exact hacked
        · exact absurd hcommit hnot

end AckAux

end FirstTree
