import FirstTree.Lib.Runs
import FirstTree.Lemmas.AckThrough
import FirstTree.Server.InboxContext

/-!
# Silent context and its trigger

A claim looks up the notify row before the first trigger of a chat, and takes each later trigger's cursor from the trigger before
it in the batch. So the silent rows of a trigger lie behind every notify row below it as long as a batch has no hole: no notify
row of the chat lies between two claimed ones without being claimed, and none commits below a trigger that is claimed already. In
every run that keeps to this, a silent row is given to one trigger only, and a trigger that is claimed again gets the same window.
A batch with a hole gives the silent rows before the hole a second time.
-/

namespace FirstTree

open Inbox Runs Transactions

variable {Key Tx : Type} [DecidableEq Key] [DecidableEq Tx]

namespace Inbox

/-- The silent rows of a bundle are of its chat, below its trigger, and above every notify row below its trigger. -/
def Bundle.Exact (b : Bundle Key) : Prop :=
  ∀ row ∈ b.preceding, row.notify = false ∧ row.inboxId = b.inboxId ∧ row.chatId = some b.chatId ∧ row.id < b.trigger.id ∧
    ∀ n ∈ b.asOf.rows, isNotifyBelow b.inboxId b.chatId b.trigger.id n = true → n.id < row.id

/-- The bundles of two triggers of one chat share no silent row. -/
def Bundle.Separate (b b' : Bundle Key) : Prop :=
  b.inboxId = b'.inboxId → b.chatId = b'.chatId → b.trigger.id ≠ b'.trigger.id →
    ∀ row ∈ b.preceding, ∀ row' ∈ b'.preceding, row.id ≠ row'.id

/-- Two bundles of one trigger have one cursor and one window, and the same rows when they skip the same. -/
def Bundle.SameWindow (tables : ContextTables Key) (createdAt createdAt' : CreatedAt) (b b' : Bundle Key) : Prop :=
  b.previousNotifyId = b'.previousNotifyId ∧ b.window tables createdAt = b'.window tables createdAt' ∧
    (b.skipped = b'.skipped → b.preceding = b'.preceding)

end Inbox

namespace InboxContext

/-- The bundle the next statement of a claim makes, when that statement selects silent rows. -/
def nextBundle (tables : ContextTables Key) (s : ContextSystem Key Tx) (tx : Tx) (locked : Nat → Bool) : Option (Bundle Key) := do
  let c ← s.find tx
  match ← c.todo.head? with
  | .preceding chatId trigger => some (bundleFor tables s tx locked c chatId trigger)
  | .previousNotify _ _ => none

/-- No notify row of a chat lies between two claimed rows of the chat without being claimed. -/
def Contiguous (t : InboxTable Key) (inboxId : Key) (claimed : List (InboxEntry Key)) : Prop :=
  ∀ a ∈ claimed, ∀ b ∈ claimed, a.chatId = b.chatId → ∀ row ∈ t.rows, row.notify = true → row.inboxId = inboxId →
    row.chatId = a.chatId → a.id < row.id → row.id < b.id → row.id ∈ claimed.map (·.id)

/-- The triggers that are claimed by now: those of the open claims and those of the bundles that were delivered. -/
def claimedTriggers (s : ContextSystem Key Tx) : List (InboxEntry Key) :=
  (s.active.entries.flatMap fun e => e.2.claimed) ++ s.store.delivered.map (·.trigger)

/-- A claim leaves no hole in its batch, and a notify row commits above the triggers of its chat that are claimed by now. -/
def NoHole (s : ContextSystem Key Tx) : ContextOp Key Tx → Prop
  | .claim tx inboxId request locked now => Contiguous s.store.table inboxId (claimRows s tx inboxId request locked now)
  | .insert id inboxId _ chatId notify _ =>
    notify = true → ∀ trigger ∈ claimedTriggers s, trigger.inboxId = inboxId → trigger.chatId = chatId → trigger.id ≤ id
  | _ => True

instance (t : InboxTable Key) (inboxId : Key) (claimed : List (InboxEntry Key)) : Decidable (Contiguous t inboxId claimed) :=
  inferInstanceAs (Decidable (∀ a ∈ claimed, ∀ b ∈ claimed, a.chatId = b.chatId → ∀ row ∈ t.rows, row.notify = true →
    row.inboxId = inboxId → row.chatId = a.chatId → a.id < row.id → row.id < b.id → row.id ∈ claimed.map (·.id)))

instance (s : ContextSystem Key Tx) : (op : ContextOp Key Tx) → Decidable (NoHole s op)
  | .claim tx inboxId request locked now =>
    inferInstanceAs (Decidable (Contiguous s.store.table inboxId (claimRows s tx inboxId request locked now)))
  | .insert id inboxId _ chatId notify _ =>
    inferInstanceAs (Decidable (notify = true → ∀ trigger ∈ claimedTriggers s, trigger.inboxId = inboxId → trigger.chatId = chatId →
      trigger.id ≤ id))
  | .query _ _ | .commit _ | .abort _ | .recover _ _ | .resetDelivered _ | .ack _ _ _ _ | .pruneAcked | .pruneStale _ =>
    inferInstanceAs (Decidable True)

/-- No ACK, no sweep, and no row that commits below a trigger of its chat. -/
def Undisturbed (b : Bundle Key) : ContextOp Key Tx → Prop
  | .ack _ _ _ _ => False
  | .pruneAcked => False
  | .pruneStale _ => False
  | .insert id inboxId _ chatId _ _ => inboxId = b.inboxId → chatId = some b.chatId → b.trigger.id ≤ id
  | _ => True

/-- Silent context is given to one trigger, over all runs of a step relation: each delivered bundle keeps to its window, the
bundles of two triggers are separate, and a trigger bundled again with no ACK and no late insert in between gets its window again.
-/
structure GivenOnce (tables : ContextTables Key) (step : ContextSystem Key Tx → ContextOp Key Tx → ContextSystem Key Tx → Prop) :
    Prop where
  exact : ∀ ops s, Run step init ops s → ∀ b ∈ s.store.delivered, b.Exact
  separate : ∀ ops s, Run step init ops s → ∀ b ∈ s.store.delivered, ∀ b' ∈ s.store.delivered, b.Separate b'
  again : ∀ ops s ops' s' tx tx' locked locked' b b', Run step init ops s → nextBundle tables s tx locked = some b →
    Run step s ops' s' → (∀ op ∈ ops', Undisturbed b op) → nextBundle tables s' tx' locked' = some b' →
    b.trigger.id = b'.trigger.id → b.SameWindow tables s.store.createdAt s'.store.createdAt b'

end InboxContext

namespace SilentContextAux

/-! ## Rows of a trigger that never change -/

/-- Two versions of one row: the columns no query updates are the same. -/
def SameRow (a b : InboxEntry Key) : Prop :=
  a.id = b.id ∧ a.inboxId = b.inboxId ∧ a.messageId = b.messageId ∧ a.chatId = b.chatId ∧ a.notify = b.notify

omit [DecidableEq Key] in
theorem SameRow.refl (a : InboxEntry Key) : SameRow a a := ⟨rfl, rfl, rfl, rfl, rfl⟩

omit [DecidableEq Key] in
theorem SameRow.symm {a b : InboxEntry Key} (h : SameRow a b) : SameRow b a :=
  ⟨h.1.symm, h.2.1.symm, h.2.2.1.symm, h.2.2.2.1.symm, h.2.2.2.2.symm⟩

omit [DecidableEq Key] in
theorem SameRow.trans {a b c : InboxEntry Key} (h : SameRow a b) (h' : SameRow b c) : SameRow a c :=
  ⟨h.1.trans h'.1, h.2.1.trans h'.2.1, h.2.2.1.trans h'.2.2.1, h.2.2.2.1.trans h'.2.2.2.1, h.2.2.2.2.trans h'.2.2.2.2⟩

/-- Whether a row is a notify row below a bound is read from those columns. -/
theorem SameRow.isNotifyBelow {a b : InboxEntry Key} (h : SameRow a b) (inboxId chatId : Key) (bound : Nat) :
    isNotifyBelow inboxId chatId bound a = isNotifyBelow inboxId chatId bound b := by
  simp only [Inbox.isNotifyBelow, h.1, h.2.1, h.2.2.2.1, h.2.2.2.2]

omit [DecidableEq Key] in
/-- Two rows of a table with one id are one row. -/
theorem row_unique {t : InboxTable Key} {a b : InboxEntry Key} (ha : a ∈ t.rows) (hb : b ∈ t.rows) (h : a.id = b.id) : a = b :=
  Table.eq_of_key_eq ha hb h

/-- The notify rows of a table are those of another, in their columns that no query updates. -/
structure SameNotify (t t' : InboxTable Key) : Prop where
  keeps : ∀ row ∈ t.rows, row.notify = true → ∃ row' ∈ t'.rows, SameRow row row'
  adds : ∀ row' ∈ t'.rows, row'.notify = true → ∃ row ∈ t.rows, SameRow row row'

omit [DecidableEq Key] in
theorem SameNotify.refl (t : InboxTable Key) : SameNotify t t :=
  ⟨fun row hrow _ => ⟨row, hrow, .refl row⟩, fun row hrow _ => ⟨row, hrow, .refl row⟩⟩

omit [DecidableEq Key] in
theorem SameNotify.trans {t t' t'' : InboxTable Key} (h : SameNotify t t') (h' : SameNotify t' t'') : SameNotify t t'' := by
  constructor
  · intro row hrow hn
    obtain ⟨row', hrow', hsame⟩ := h.keeps row hrow hn
    obtain ⟨row'', hrow'', hsame'⟩ := h'.keeps row' hrow' (by rw [← hsame.2.2.2.2, hn])
    exact ⟨row'', hrow'', hsame.trans hsame'⟩
  · intro row'' hrow'' hn
    obtain ⟨row', hrow', hsame'⟩ := h'.adds row'' hrow'' hn
    obtain ⟨row, hrow, hsame⟩ := h.adds row' hrow' (by rw [hsame'.2.2.2.2, hn])
    exact ⟨row, hrow, hsame.trans hsame'⟩

omit [DecidableEq Key] in
/-- An update of statuses keeps the notify rows. -/
theorem sameNotify_updateWhere (t : InboxTable Key) {p : InboxEntry Key → Bool} {f : InboxEntry Key → InboxEntry Key}
    {hf : ∀ r, (f r).id = r.id} (hsame : ∀ r, SameRow r (f r)) : SameNotify t (t.updateWhere p f hf) := by
  have hite : ∀ r, SameRow r (if p r then f r else r) := by
    intro r
    split
    · exact hsame r
    · exact .refl r
  constructor
  · intro row hrow _
    exact ⟨_, Table.mem_updateWhere.mpr ⟨row, hrow, rfl⟩, hite row⟩
  · intro row' hrow' _
    obtain ⟨row, hrow, rfl⟩ := Table.mem_updateWhere.mp hrow'
    exact ⟨row, hrow, hite row⟩

omit [DecidableEq Key] in
/-- A deletion of silent rows keeps the notify rows. -/
theorem sameNotify_deleteWhere (t : InboxTable Key) {p : InboxEntry Key → Bool} (hp : ∀ r, p r = true → r.notify = false) :
    SameNotify t (t.deleteWhere p) := by
  constructor
  · intro row hrow hn
    refine ⟨row, Table.mem_deleteWhere.mpr ⟨hrow, ?_⟩, .refl row⟩
    cases hpr : p row
    · rfl
    · rw [hp row hpr] at hn
      exact absurd hn (by simp)
  · intro row hrow _
    exact ⟨row, (Table.mem_deleteWhere.mp hrow).1, .refl row⟩

omit [DecidableEq Key] in
/-- What the resets and the ACKs do to a table keeps the notify rows. -/
theorem sameNotify_of_evolves {t t' : InboxTable Key} (h : InboxAux.TableEvolves t t') : SameNotify t t' := by
  have hsame : ∀ {r r' : InboxEntry Key}, InboxAux.RowEvolves r r' → SameRow r r' := fun hr =>
    ⟨hr.id_eq.symm, hr.inboxId_eq.symm, hr.messageId_eq.symm, hr.chatId_eq.symm, hr.notify_eq.symm⟩
  constructor
  · intro row hrow _
    obtain ⟨row', hrow', hev⟩ := h.rows row hrow
    exact ⟨row', hrow', hsame hev⟩
  · intro row' hrow' _
    have hid : row'.id ∈ t.rows.map (·.id) := h.ids_eq ▸ List.mem_map_of_mem hrow'
    obtain ⟨row, hrow, heq⟩ := List.mem_map.mp hid
    obtain ⟨row'', hrow'', hev⟩ := h.rows row hrow
    obtain rfl : row'' = row' := row_unique hrow'' hrow' (hev.id_eq.trans heq)
    exact ⟨row, hrow, hsame hev⟩

/-! ## The notify row before a trigger -/

omit [DecidableEq Key] in
/-- The greatest number of a list depends on its members only. -/
theorem max?_congr {l l' : List Nat} (h : ∀ a, a ∈ l ↔ a ∈ l') : l.max? = l'.max? := by
  cases hl : l.max? with
  | none =>
    rw [List.max?_eq_none_iff] at hl
    subst hl
    refine (List.max?_eq_none_iff.mpr ?_).symm
    exact List.eq_nil_iff_forall_not_mem.mpr fun a ha => by simpa using (h a).mpr ha
  | some m =>
    obtain ⟨hm, hmax⟩ := List.max?_eq_some_iff.mp hl
    exact (List.max?_eq_some_iff.mpr ⟨(h m).mp hm, fun b hb => hmax b ((h b).mpr hb)⟩).symm

/-- The cursor before a trigger is none when no notify row is below it, else the greatest of them. -/
theorem previousNotify_eq_iff {t : InboxTable Key} {inboxId chatId : Key} {bound p : Nat} :
    previousNotify t inboxId chatId bound = some p ↔
      (∃ n ∈ t.rows, isNotifyBelow inboxId chatId bound n = true ∧ n.id = p) ∧
        ∀ n ∈ t.rows, isNotifyBelow inboxId chatId bound n = true → n.id ≤ p := by
  rw [previousNotify, List.max?_eq_some_iff]
  simp only [List.mem_map, Table.mem_select, and_assoc]
  constructor
  · rintro ⟨h, hmax⟩
    exact ⟨h, fun n hn hb => hmax n.id ⟨n, hn, hb, rfl⟩⟩
  · rintro ⟨h, hmax⟩
    refine ⟨h, ?_⟩
    rintro _ ⟨n, hn, hb, rfl⟩
    exact hmax n hn hb

/-- Every notify row below a trigger is at or below the cursor before the trigger. -/
theorem exists_previousNotify {t : InboxTable Key} {inboxId chatId : Key} {bound : Nat} {n : InboxEntry Key} (hn : n ∈ t.rows)
    (hb : isNotifyBelow inboxId chatId bound n = true) : ∃ p, previousNotify t inboxId chatId bound = some p ∧ n.id ≤ p := by
  cases hp : previousNotify t inboxId chatId bound with
  | none =>
    rw [previousNotify, List.max?_eq_none_iff, List.map_eq_nil_iff] at hp
    have hmem : n ∈ t.select (isNotifyBelow inboxId chatId bound) := Table.mem_select.mpr ⟨hn, hb⟩
    rw [hp] at hmem
    exact absurd hmem List.not_mem_nil
  | some p => exact ⟨p, rfl, (previousNotify_eq_iff.mp hp).2 n hn hb⟩

/-- The cursor before a trigger is read from the notify rows. -/
theorem SameNotify.previousNotify {t t' : InboxTable Key} (h : SameNotify t t') (inboxId chatId : Key) (bound : Nat) :
    previousNotify t' inboxId chatId bound = previousNotify t inboxId chatId bound := by
  refine max?_congr fun a => ?_
  simp only [List.mem_map, Table.mem_select]
  constructor
  · rintro ⟨n, ⟨hn, hb⟩, rfl⟩
    obtain ⟨m, hm, hsame⟩ := h.adds n hn (by simp only [isNotifyBelow, Bool.and_eq_true] at hb; exact hb.1.2)
    exact ⟨m, ⟨hm, by rw [hsame.isNotifyBelow, hb]⟩, hsame.1⟩
  · rintro ⟨n, ⟨hn, hb⟩, rfl⟩
    obtain ⟨m, hm, hsame⟩ := h.keeps n hn (by simp only [isNotifyBelow, Bool.and_eq_true] at hb; exact hb.1.2)
    exact ⟨m, ⟨hm, by rw [← hsame.isNotifyBelow, hb]⟩, hsame.1.symm⟩

/-- A new row that is no notify row below the trigger leaves the cursor before the trigger as it is. -/
theorem previousNotify_insert {t : InboxTable Key} {row : InboxEntry Key} {h : row.id ∉ t.rows.map (·.id)} {inboxId chatId : Key}
    {bound : Nat} (hrow : isNotifyBelow inboxId chatId bound row = false) :
    previousNotify (t.insert row h) inboxId chatId bound = previousNotify t inboxId chatId bound := by
  rw [previousNotify, Table.select_insert t hrow, ← previousNotify]

/-! ## The rows a claim takes -/

/-- Every way to claim marks distinct pending notify rows of the inbox. -/
theorem rows_eq_claim (t : InboxTable Key) (inboxId : Key) (locked : Nat → Bool) (now : Nat) (request : ClaimRequest Key) :
    ∃ targets : List (InboxEntry Key), request.rows t inboxId locked now = (claim t targets now).1 ∧ targets.Nodup ∧
      ∀ r ∈ targets, r ∈ t.rows ∧ isPendingNotify inboxId r = true := by
  have hpoll : ∀ limit chatId, ∃ targets : List (InboxEntry Key),
      (pollInboxInner t inboxId limit chatId locked now).1 = (claim t targets now).1 ∧ targets.Nodup ∧
        ∀ r ∈ targets, r ∈ t.rows ∧ isPendingNotify inboxId r = true := by
    intro limit chatId
    refine ⟨_, rfl, (InboxAux.selectBy_nodup t _ _).sublist (List.take_sublist _ _), fun r hr => ?_⟩
    have hsel := List.mem_of_mem_take hr
    simp only [Table.mem_selectBy, Bool.and_eq_true] at hsel
    exact ⟨hsel.1, hsel.2.1.1⟩
  have hnone : ∃ targets : List (InboxEntry Key), [] = (claim t targets now).1 ∧ targets.Nodup ∧
      ∀ r ∈ targets, r ∈ t.rows ∧ isPendingNotify inboxId r = true := ⟨[], rfl, List.nodup_nil, by simp⟩
  cases request with
  | poll limit => exact hpoll limit none
  | chat chatId limit => exact hpoll limit (some chatId)
  | fair limit dflt budgets =>
    simp only [ClaimRequest.rows, claimBacklogForPushFair]
    split
    · exact hnone
    · split
      · exact hnone
      · refine ⟨_, rfl, ((InboxAux.selectBy_nodup t _ _).sublist (List.take_sublist _ _)).filter _, fun r hr => ?_⟩
        obtain ⟨hrow, hpending, _⟩ := InboxAux.mem_fairEligible (List.mem_of_mem_filter hr)
        exact ⟨hrow, hpending⟩
  | message messageId =>
    simp only [ClaimRequest.rows, claimAndBuildForPush]
    split
    · exact hnone
    · refine ⟨_, rfl, InboxAux.selectBy_nodup t _ _, fun r hr => ?_⟩
      simp only [Table.mem_selectBy, Bool.and_eq_true] at hr
      exact ⟨hr.1, hr.2.1.1⟩

/-- A claimed row is a notify row of the inbox that the table has. -/
def Known (t : InboxTable Key) (inboxId : Key) (trigger : InboxEntry Key) : Prop :=
  trigger.inboxId = inboxId ∧ trigger.notify = true ∧ ∃ row ∈ t.rows, SameRow row trigger

theorem known_of_mem_rows {t : InboxTable Key} {inboxId : Key} {locked : Nat → Bool} {now : Nat} {request : ClaimRequest Key}
    {e : InboxEntry Key} (he : e ∈ request.rows t inboxId locked now) : Known t inboxId e := by
  obtain ⟨targets, heq, _, htargets⟩ := rows_eq_claim t inboxId locked now request
  rw [heq] at he
  obtain ⟨r, hr, rfl⟩ := InboxAux.mem_claim.mp he
  obtain ⟨hrow, hpending⟩ := htargets r hr
  obtain ⟨hinbox, _, hnotify⟩ := InboxAux.pending_of_isPendingNotify hpending
  exact ⟨hinbox, hnotify, r, hrow, .refl r⟩

/-- The claimed rows have distinct ids. -/
theorem rows_ids_nodup (t : InboxTable Key) (inboxId : Key) (locked : Nat → Bool) (now : Nat) (request : ClaimRequest Key) :
    ((request.rows t inboxId locked now).map (·.id)).Nodup := by
  obtain ⟨targets, heq, hnodup, htargets⟩ := rows_eq_claim t inboxId locked now request
  have hids : (targets.map (·.id)).Nodup :=
    hnodup.map_on fun a ha b hb hab => row_unique (htargets a ha).1 (htargets b hb).1 hab
  rw [heq]
  have hperm : ((claim t targets now).1.map (·.id)).Perm (targets.map (·.id)) := by
    have := (List.perm_insertionSort byId (targets.map (markDelivered now))).map (·.id)
    rw [List.map_map] at this
    exact this
  exact hperm.nodup_iff.mpr hids

omit [DecidableEq Key] in
theorem Known.of_sameNotify {t t' : InboxTable Key} (h : SameNotify t t') {inboxId : Key} {trigger : InboxEntry Key}
    (hk : Known t inboxId trigger) : Known t' inboxId trigger := by
  obtain ⟨hinbox, hnotify, row, hrow, hsame⟩ := hk
  obtain ⟨row', hrow', hsame'⟩ := h.keeps row hrow (by rw [hsame.2.2.2.2, hnotify])
  exact ⟨hinbox, hnotify, row', hrow', hsame'.symm.trans hsame⟩

/-! ## The plan of a claim -/

/-- The trigger id a statement is about. -/
def triggerIdOf : ContextQuery Key → Nat
  | .previousNotify _ firstTriggerId => firstTriggerId
  | .preceding _ trigger => trigger.id

/-- The chat a statement is about. -/
def chatIdOf : ContextQuery Key → Key
  | .previousNotify chatId _ => chatId
  | .preceding chatId _ => chatId

/-- Run on one table, the statements find each trigger's cursor at the greatest notify row below the trigger. -/
def PlanExact (t : InboxTable Key) (inboxId : Key) : Option Nat → List (ContextQuery Key) → Prop
  | _, [] => True
  | _, .previousNotify chatId firstTriggerId :: rest =>
    PlanExact t inboxId (previousNotify t inboxId chatId firstTriggerId) rest
  | cursor, .preceding chatId trigger :: rest =>
    cursor = previousNotify t inboxId chatId trigger.id ∧ PlanExact t inboxId (some trigger.id) rest

/-- A plan stays exact on a table with the same cursors before its triggers. -/
theorem PlanExact.congr {t t' : InboxTable Key} {inboxId : Key} {queries : List (ContextQuery Key)}
    (h : ∀ q ∈ queries, previousNotify t' inboxId (chatIdOf q) (triggerIdOf q) =
      previousNotify t inboxId (chatIdOf q) (triggerIdOf q)) :
    ∀ {cursor : Option Nat}, PlanExact t inboxId cursor queries → PlanExact t' inboxId cursor queries := by
  induction queries with
  | nil => exact fun _ => trivial
  | cons q rest ih =>
    intro cursor hplan
    have hhead := h q List.mem_cons_self
    have htail := fun q' hq' => h q' (List.mem_cons_of_mem q hq')
    cases q with
    | previousNotify chatId firstTriggerId =>
      simp only [chatIdOf, triggerIdOf] at hhead
      simp only [PlanExact] at hplan ⊢
      rw [hhead]
      exact ih htail hplan
    | preceding chatId trigger =>
      simp only [chatIdOf, triggerIdOf] at hhead
      exact ⟨hplan.1.trans hhead.symm, ih htail hplan.2⟩

/-- Exact plans that start from any cursor can follow each other. -/
theorem PlanExact.append {t : InboxTable Key} {inboxId : Key} {queries rest : List (ContextQuery Key)}
    (hrest : ∀ cursor, PlanExact t inboxId cursor rest) :
    ∀ {cursor : Option Nat}, PlanExact t inboxId cursor queries → PlanExact t inboxId cursor (queries ++ rest) := by
  induction queries with
  | nil => exact fun _ => hrest _
  | cons q queries ih =>
    intro cursor hplan
    cases q with
    | previousNotify chatId firstTriggerId => exact ih (show PlanExact t inboxId _ queries from hplan)
    | preceding chatId trigger => exact ⟨hplan.1, ih hplan.2⟩

/-- Behind a trigger, the triggers of the chat in the order of their ids follow each other with no notify row between. -/
theorem planExact_chain {t : InboxTable Key} {inboxId chatId : Key} {triggers : List (InboxEntry Key)} {first : InboxEntry Key}
    (hsorted : (first :: triggers).Pairwise fun a b => a.id < b.id)
    (hknown : ∀ c ∈ first :: triggers, Known t inboxId c ∧ c.chatId = some chatId)
    (hhole : ∀ n ∈ t.rows, n.notify = true → n.inboxId = inboxId → n.chatId = some chatId → first.id < n.id →
      (∃ c ∈ triggers, n.id < c.id) → n.id ∈ triggers.map (·.id)) :
    PlanExact t inboxId (some first.id) (triggers.map (.preceding chatId)) := by
  induction triggers generalizing first with
  | nil => trivial
  | cons second triggers ih =>
    have hlt : first.id < second.id := (List.pairwise_cons.mp hsorted).1 second List.mem_cons_self
    have htail := (List.pairwise_cons.mp hsorted).2
    refine ⟨(previousNotify_eq_iff.mpr ⟨?_, ?_⟩).symm, ih htail (fun c hc => hknown c (List.mem_cons_of_mem first hc)) ?_⟩
    · obtain ⟨⟨hinbox, hnotify, row, hrow, hsame⟩, hchat⟩ := hknown first List.mem_cons_self
      refine ⟨row, hrow, ?_, hsame.1⟩
      rw [hsame.isNotifyBelow]
      simp [isNotifyBelow, hinbox, hchat, hnotify, hlt]
    · intro n hn hb
      simp only [isNotifyBelow, Bool.and_eq_true, decide_eq_true_eq] at hb
      by_contra hgt
      have hin := hhole n hn hb.1.2 hb.1.1.1 hb.1.1.2 (by omega) ⟨second, List.mem_cons_self, hb.2⟩
      obtain ⟨c, hc, hid⟩ := List.mem_map.mp hin
      rcases List.mem_cons.mp hc with rfl | hc
      · omega
      · have := (List.pairwise_cons.mp htail).1 c hc
        omega
    · rintro n hn hnotify hinbox hchat hgt ⟨c, hc, hnc⟩
      have hin := hhole n hn hnotify hinbox hchat (by omega) ⟨c, List.mem_cons_of_mem second hc, hnc⟩
      obtain ⟨d, hd, hid⟩ := List.mem_map.mp hin
      rcases List.mem_cons.mp hd with rfl | hd
      · omega
      · exact List.mem_map.mpr ⟨d, hd, hid⟩

instance : Std.Total (@byId Key) := ⟨fun a b => Nat.le_total a.id b.id⟩

instance : IsTrans (InboxEntry Key) byId := ⟨fun _ _ _ => Nat.le_trans⟩

/-- The statements for a contiguous batch are an exact plan. -/
theorem planExact_contextQueries {t : InboxTable Key} {inboxId : Key} {claimed : List (InboxEntry Key)}
    (hknown : ∀ c ∈ claimed, Known t inboxId c) (hnodup : (claimed.map (·.id)).Nodup)
    (hcont : InboxContext.Contiguous t inboxId claimed)
    (cursor : Option Nat) : PlanExact t inboxId cursor (contextQueries claimed) := by
  unfold contextQueries
  generalize (claimed.filterMap (·.chatId)).eraseDups = chats
  induction chats generalizing cursor with
  | nil => trivial
  | cons chatId chats ih =>
    rw [List.flatMap_cons]
    refine PlanExact.append ih ?_
    have hperm := List.perm_insertionSort byId (claimed.filter fun trigger => decide (trigger.chatId = some chatId))
    have hle : ((claimed.filter fun trigger => decide (trigger.chatId = some chatId)).insertionSort byId).Pairwise byId :=
      List.pairwise_insertionSort byId _
    have hne : ((claimed.filter fun trigger => decide (trigger.chatId = some chatId)).insertionSort byId).Pairwise
        fun a b => a.id ≠ b.id := by
      have hsub : ((claimed.filter fun trigger => decide (trigger.chatId = some chatId)).map (·.id)).Nodup :=
        hnodup.sublist (List.Sublist.map _ List.filter_sublist)
      exact List.pairwise_map.mp ((hperm.map InboxEntry.id).nodup_iff.mpr hsub)
    have hmem : ∀ c, c ∈ (claimed.filter fun trigger => decide (trigger.chatId = some chatId)).insertionSort byId ↔
        c ∈ claimed ∧ c.chatId = some chatId := by
      intro c
      rw [hperm.mem_iff, List.mem_filter, decide_eq_true_eq]
    generalize (claimed.filter fun trigger => decide (trigger.chatId = some chatId)).insertionSort byId = triggers at hle hne hmem
    cases triggers with
    | nil => trivial
    | cons first triggers =>
      have hlt : (first :: triggers).Pairwise fun a b => a.id < b.id := hle.imp₂ (fun _ _ h h' => lt_of_le_of_ne h h') hne
      refine ⟨rfl, planExact_chain hlt (fun c hc => ?_) ?_⟩
      · exact ⟨hknown c ((hmem c).mp hc).1, ((hmem c).mp hc).2⟩
      · rintro n hn hnotify hinbox hchat hgt ⟨c, hc, hnc⟩
        obtain ⟨hfirst, hfirstChat⟩ := (hmem first).mp List.mem_cons_self
        obtain ⟨hcmem, hcchat⟩ := (hmem c).mp (List.mem_cons_of_mem first hc)
        have hin :=
          hcont first hfirst c hcmem (hfirstChat.trans hcchat.symm) n hn hnotify hinbox (hchat.trans hfirstChat.symm) hgt hnc
        obtain ⟨d, hd, hid⟩ := List.mem_map.mp hin
        have hdchat : d.chatId = some chatId := by
          obtain ⟨_, _, row, hrow, hsame⟩ := hknown d hd
          obtain rfl : row = n := row_unique hrow hn (hsame.1.trans hid)
          rw [← hsame.2.2.2.1, hchat]
        rcases List.mem_cons.mp ((hmem d).mpr ⟨hd, hdchat⟩) with rfl | hd'
        · omega
        · exact List.mem_map.mpr ⟨d, hd', hid⟩

/-- Every statement of a claim is about one of its triggers. -/
theorem target_of_mem_contextQueries {claimed : List (InboxEntry Key)} {q : ContextQuery Key} (hq : q ∈ contextQueries claimed) :
    ∃ c ∈ claimed, c.chatId = some (chatIdOf q) ∧ c.id = triggerIdOf q ∧ ∀ chatId trigger, q = .preceding chatId trigger →
      trigger = c := by
  obtain ⟨chatId, _, hq⟩ := List.mem_flatMap.mp hq
  have hmem : ∀ c ∈ (claimed.filter fun trigger => decide (trigger.chatId = some chatId)).insertionSort byId,
      c ∈ claimed ∧ c.chatId = some chatId := by
    intro c hc
    rwa [List.mem_insertionSort, List.mem_filter, decide_eq_true_eq] at hc
  generalize (claimed.filter fun trigger => decide (trigger.chatId = some chatId)).insertionSort byId = triggers at hq hmem
  cases triggers with
  | nil => exact absurd hq List.not_mem_nil
  | cons first triggers =>
    rcases List.mem_cons.mp hq with rfl | hq
    · exact ⟨first, (hmem first List.mem_cons_self).1, (hmem first List.mem_cons_self).2, rfl, nofun⟩
    · obtain ⟨c, hc, rfl⟩ := List.mem_map.mp hq
      refine ⟨c, (hmem c hc).1, (hmem c hc).2, rfl, fun chatId' trigger heq => ?_⟩
      cases heq
      rfl

/-! ## What holds of the bundles and the open claims -/

/-- The cursor of a bundle is the notify row before its trigger, then and now, and its rows lie between the two. -/
structure BundleOk (t : InboxTable Key) (b : Bundle Key) : Prop where
  known : Known t b.inboxId b.trigger
  chat : b.trigger.chatId = some b.chatId
  cursor : b.previousNotifyId = previousNotify b.asOf b.inboxId b.chatId b.trigger.id
  still : previousNotify t b.inboxId b.chatId b.trigger.id = b.previousNotifyId
  rows : ∀ row ∈ b.preceding, row.notify = false ∧ row.inboxId = b.inboxId ∧ row.chatId = some b.chatId ∧ row.id < b.trigger.id ∧
    b.previousNotifyId.all (fun previous => decide (previous < row.id)) = true

/-- The bundle keeps to its window. -/
theorem BundleOk.exact {t : InboxTable Key} {b : Bundle Key} (h : BundleOk t b) : b.Exact := by
  intro row hrow
  obtain ⟨hsilent, hinbox, hchat, hlt, hall⟩ := h.rows row hrow
  refine ⟨hsilent, hinbox, hchat, hlt, fun n hn hb => ?_⟩
  obtain ⟨p, hp, hle⟩ := exists_previousNotify hn hb
  rw [h.cursor, hp] at hall
  have hlow : p < row.id := by simpa using hall
  omega

/-- The later trigger's rows lie behind the earlier trigger, the earlier trigger's rows before it. -/
theorem BundleOk.lt_of_lt {t : InboxTable Key} {b b' : Bundle Key} (h : BundleOk t b) (h' : BundleOk t b')
    (hinbox : b.inboxId = b'.inboxId) (hchat : b.chatId = b'.chatId) (hlt : b.trigger.id < b'.trigger.id) :
    ∀ row ∈ b.preceding, ∀ row' ∈ b'.preceding, row.id < row'.id := by
  intro row hrow row' hrow'
  obtain ⟨htinbox, htnotify, r, hr, hsame⟩ := h.known
  have hbelow : isNotifyBelow b'.inboxId b'.chatId b'.trigger.id r = true := by
    rw [hsame.isNotifyBelow]
    simp [isNotifyBelow, htinbox, htnotify, h.chat, hinbox, hchat, hlt]
  obtain ⟨p, hp, hle⟩ := exists_previousNotify hr hbelow
  have hall := (h'.rows row' hrow').2.2.2.2
  rw [← h'.still, hp] at hall
  have hlow : p < row'.id := by simpa using hall
  have hup := (h.rows row hrow).2.2.2.1
  have hid := hsame.1
  omega

theorem BundleOk.separate {t : InboxTable Key} {b b' : Bundle Key} (h : BundleOk t b) (h' : BundleOk t b') : b.Separate b' := by
  intro hinbox hchat hne row hrow row' hrow'
  rcases Nat.lt_or_gt_of_ne hne with hlt | hgt
  · exact Nat.ne_of_lt (h.lt_of_lt h' hinbox hchat hlt row hrow row' hrow')
  · exact Nat.ne_of_gt (h'.lt_of_lt h hinbox.symm hchat.symm hgt row' hrow' row hrow)

/-- The triggers of an open claim are rows of the table, its statements are about them, the rest of its plan is exact, and so are the
bundles it has made. -/
structure ClaimOk (t : InboxTable Key) (c : ClaimTx Key) : Prop where
  known : ∀ e ∈ c.claimed, Known t c.inboxId e
  targets : ∀ q ∈ c.todo, ∃ e ∈ c.claimed, e.chatId = some (chatIdOf q) ∧ e.id = triggerIdOf q ∧
    ∀ chatId trigger, q = .preceding chatId trigger → trigger = e
  plan : PlanExact t c.inboxId c.previousNotifyId c.todo
  bundles : ∀ b ∈ c.bundles, BundleOk t b ∧ b.inboxId = c.inboxId ∧ b.trigger ∈ c.claimed

/-- What the committed store holds: exact bundles, and silent rows that were never delivered. -/
structure StoreOk (store : ContextStore Key) : Prop where
  delivered : ∀ b ∈ store.delivered, BundleOk store.table b
  silent : ∀ row ∈ store.table.rows, row.notify = false → row.status ≠ .delivered

/-- A table keeps a trigger: it still has the row, with the same notify row before it. -/
structure Keeps (t t' : InboxTable Key) (inboxId : Key) (e : InboxEntry Key) : Prop where
  known : Known t inboxId e → Known t' inboxId e
  cursor : ∀ chatId, e.chatId = some chatId → previousNotify t' inboxId chatId e.id = previousNotify t inboxId chatId e.id

theorem keeps_of_sameNotify {t t' : InboxTable Key} (h : SameNotify t t') (inboxId : Key) (e : InboxEntry Key) :
    Keeps t t' inboxId e :=
  ⟨Known.of_sameNotify h, fun chatId _ => h.previousNotify inboxId chatId e.id⟩

theorem BundleOk.keep {t t' : InboxTable Key} {b : Bundle Key} (h : BundleOk t b) (hk : Keeps t t' b.inboxId b.trigger) :
    BundleOk t' b where
  known := hk.known h.known
  chat := h.chat
  cursor := h.cursor
  still := (hk.cursor b.chatId h.chat).trans h.still
  rows := h.rows

theorem ClaimOk.keep {t t' : InboxTable Key} {c : ClaimTx Key} (h : ClaimOk t c) (hk : ∀ e ∈ c.claimed, Keeps t t' c.inboxId e) :
    ClaimOk t' c where
  known e he := (hk e he).known (h.known e he)
  targets := h.targets
  plan := by
    refine h.plan.congr fun q hq => ?_
    obtain ⟨e, he, hchat, hid, _⟩ := h.targets q hq
    rw [← hid]
    exact (hk e he).cursor (chatIdOf q) hchat
  bundles b hb := by
    obtain ⟨hok, hinbox, htrigger⟩ := h.bundles b hb
    exact ⟨hok.keep (hinbox ▸ hk _ htrigger), hinbox, htrigger⟩

/-! ## One step -/

omit [DecidableEq Key] in
/-- The selected rows are rows of the window. -/
theorem mem_precedingRows {tables : ContextTables Key} {window : List (InboxEntry Key)} {skipped : List Nat} {row : InboxEntry Key}
    (h : row ∈ precedingRows tables window skipped) : row ∈ window := by
  rw [precedingRows, List.mem_reverse] at h
  have h := List.mem_of_mem_take h
  rw [List.mem_insertionSort] at h
  exact List.mem_of_mem_filter h

/-- A statement whose plan is exact leaves an exact plan, and makes an exact bundle. -/
theorem runQuery_ok {tables : ContextTables Key} {s : ContextSystem Key Tx} {tx : Tx} {locked : Nat → Bool} {c : ClaimTx Key}
    {q : ContextQuery Key} {rest : List (ContextQuery Key)} (h : ClaimOk s.store.table c) (htodo : c.todo = q :: rest) :
    ClaimOk s.store.table { InboxContext.runQuery tables s tx locked c q with todo := rest } := by
  have hplan := h.plan
  rw [htodo] at hplan
  have htargets : ∀ q' ∈ rest, ∃ e ∈ c.claimed, e.chatId = some (chatIdOf q') ∧ e.id = triggerIdOf q' ∧
      ∀ chatId trigger, q' = .preceding chatId trigger → trigger = e :=
    fun q' hq' => h.targets q' (htodo ▸ List.mem_cons_of_mem q hq')
  obtain ⟨e, he, hchat, _, heq⟩ := h.targets q (htodo ▸ List.mem_cons_self)
  cases q with
  | previousNotify chatId firstTriggerId => exact ⟨h.known, htargets, hplan, h.bundles⟩
  | preceding chatId trigger =>
    obtain rfl := heq chatId trigger rfl
    refine ⟨h.known, htargets, hplan.2, fun b hb => ?_⟩
    rcases List.mem_append.mp hb with hb | hb
    · exact h.bundles b hb
    · obtain rfl := List.mem_singleton.mp hb
      refine ⟨⟨h.known trigger he, hchat, hplan.1, hplan.1.symm, fun row hrow => ?_⟩, rfl, he⟩
      have hwindow := (Table.mem_select.mp (mem_precedingRows hrow)).2
      simp only [inPrecedingWindow, Bool.and_eq_true, decide_eq_true_eq, Bool.not_eq_true'] at hwindow
      obtain ⟨⟨⟨⟨⟨⟨hinbox, hrowChat⟩, _⟩, hsilent⟩, hlt⟩, hall⟩, _⟩ := hwindow
      exact ⟨hsilent, hinbox, hrowChat, hlt, hall⟩

/-- The invariant of the inbox. -/
abbrev Sound (s : ContextSystem Key Tx) : Prop :=
  Invariant StoreOk (fun store c => ClaimOk store.table c) (fun _ _ => True) s

/-- An update that keeps the notify rows and delivers no silent row keeps the invariant. -/
theorem sound_whenUnheld {s s' : ContextSystem Key Tx} (h : Sound s) {p : InboxEntry Key → Bool} {table : InboxTable Key}
    (hstep : InboxContext.whenUnheld s p table = some s') (hsame : SameNotify s.store.table table)
    (hsilent : ∀ row ∈ table.rows, row.notify = false → row.status ≠ .delivered) : Sound s' := by
  unfold InboxContext.whenUnheld at hstep
  split at hstep
  · obtain rfl := Option.some.inj hstep
    refine h.setStore ⟨fun b hb => ?_, hsilent⟩ fun _ c _ hc => ?_
    · exact (h.store.delivered b hb).keep (keeps_of_sameNotify hsame _ _)
    · exact hc.keep fun e _ => keeps_of_sameNotify hsame _ e
  · cases hstep

omit [DecidableEq Key] in
/-- An update that leaves no row delivered delivers no silent row. -/
theorem silent_updateWhere {t : InboxTable Key} {p : InboxEntry Key → Bool} {f : InboxEntry Key → InboxEntry Key}
    (hf : ∀ r, (f r).id = r.id) (hstatus : ∀ r, (f r).status ≠ .delivered)
    (h : ∀ row ∈ t.rows, row.notify = false → row.status ≠ .delivered) :
    ∀ row ∈ (t.updateWhere p f hf).rows, row.notify = false → row.status ≠ .delivered := by
  intro row' hrow' hn
  obtain ⟨row, hrow, rfl⟩ := Table.mem_updateWhere.mp hrow'
  by_cases hp : p row = true
  · rw [if_pos hp]
    exact hstatus row
  · rw [if_neg hp] at hn ⊢
    exact h row hrow hn

/-- An ACK delivers no silent row. -/
theorem silent_ack {t : InboxTable Key} (h : ∀ row ∈ t.rows, row.notify = false → row.status ≠ .delivered) (entryId : Nat)
    (inboxIds : List Key) (snapshot : Finset Nat) (now : Nat) :
    ∀ row ∈ (ackThroughEntryIdForBoundAgents t entryId inboxIds snapshot now).2.rows, row.notify = false →
      row.status ≠ .delivered := by
  rcases AckAux.ackThrough_cases t entryId inboxIds snapshot now with ⟨reason, heq⟩ | ⟨entry, _, _, _, _, _, hcase⟩
  · rw [heq]
    exact h
  · rcases hcase with ⟨_, heq⟩ | ⟨_, _, _, _, _, heq, _⟩
    · rw [heq]
      exact h
    · rw [heq]
      exact silent_updateWhere (f := markAcked now) (fun _ => rfl) (fun _ h => by cases h)
        (silent_updateWhere (f := markAcked now) (fun _ => rfl) (fun _ h => by cases h) h)

omit [DecidableEq Key] in
/-- The rows a commit marks delivered are notify rows. -/
theorem silent_commit {t : InboxTable Key} {inboxId : Key} {claimed : List (InboxEntry Key)} {now : Nat}
    (hknown : ∀ e ∈ claimed, Known t inboxId e) (h : ∀ row ∈ t.rows, row.notify = false → row.status ≠ .delivered) :
    ∀ row ∈ (t.updateWhere (fun row => decide (row.id ∈ claimed.map (·.id))) (markDelivered now) fun _ => rfl).rows,
      row.notify = false → row.status ≠ .delivered := by
  intro row' hrow' hn
  obtain ⟨row, hrow, rfl⟩ := Table.mem_updateWhere.mp hrow'
  by_cases hp : row.id ∈ claimed.map (·.id)
  · obtain ⟨e, he, hid⟩ := List.mem_map.mp hp
    obtain ⟨_, hnotify, r, hr, hsame⟩ := hknown e he
    obtain rfl : r = row := row_unique hr hrow (hsame.1.trans hid)
    have hrn : r.notify = true := hsame.2.2.2.2.trans hnotify
    simp only [hp, decide_true, if_true] at hn
    exact absurd (hrn.symm.trans hn) (by simp)
  · simp only [hp, decide_false, Bool.false_eq_true, if_false] at hn ⊢
    exact h row hrow hn

omit [DecidableEq Key] in
/-- A trigger that is claimed by now is one of an open claim or of a delivered bundle. -/
theorem mem_claimedTriggers {s : ContextSystem Key Tx} {e : InboxEntry Key}
    (h : (∃ k c, s.find k = some c ∧ e ∈ c.claimed) ∨ ∃ b ∈ s.store.delivered, b.trigger = e) :
    e ∈ InboxContext.claimedTriggers s := by
  rw [InboxContext.claimedTriggers, List.mem_append, List.mem_flatMap, List.mem_map]
  rcases h with ⟨k, c, hfind, he⟩ | ⟨b, hb, rfl⟩
  · exact Or.inl ⟨⟨k, c⟩, AList.mem_lookup_iff.mp hfind, he⟩
  · exact Or.inr ⟨b, hb, rfl⟩

/-- A new row keeps a trigger above which, or in another chat than which, it commits. -/
theorem keeps_insert {t : InboxTable Key} {row : InboxEntry Key} {h : row.id ∉ t.rows.map (·.id)} {inboxId : Key} {e : InboxEntry Key}
    (hinbox : e.inboxId = inboxId) (hrow : row.notify = true → e.inboxId = row.inboxId → e.chatId = row.chatId → e.id ≤ row.id) :
    Keeps t (t.insert row h) inboxId e where
  known := by
    rintro ⟨hi, hn, r, hr, hsame⟩
    exact ⟨hi, hn, r, Table.mem_insert.mpr (Or.inl hr), hsame⟩
  cursor chatId hchat := by
    refine previousNotify_insert ?_
    by_contra hb
    simp only [Bool.not_eq_false, isNotifyBelow, Bool.and_eq_true, decide_eq_true_eq] at hb
    have := hrow hb.1.2 (hinbox.trans hb.1.1.1.symm) (hchat.trans hb.1.1.2.symm)
    omega

/-- One step that leaves no hole keeps the invariant. -/
theorem sound_step {tables : ContextTables Key} {s s' : ContextSystem Key Tx} {op : ContextOp Key Tx} (h : Sound s)
    (hguard : InboxContext.NoHole s op) (hstep : InboxContext.step tables s op = some s') : Sound s' := by
  cases op with
  | insert id inboxId messageId chatId notify createdAt =>
    simp only [InboxContext.step] at hstep
    split at hstep
    · next hnew =>
      obtain rfl := Option.some.inj hstep
      have hkeeps : ∀ i e, e.inboxId = i → e ∈ InboxContext.claimedTriggers s → Keeps s.store.table
          (s.store.table.insert (InboxServer.newEntry id inboxId messageId chatId notify) hnew) i e :=
        fun i e hi he => keeps_insert hi fun hn hinbox hchat => hguard hn e he hinbox hchat
      refine h.setStore ⟨fun b hb => ?_, fun row hrow hn => ?_⟩ fun k c hfind hc => ?_
      · have hok := h.store.delivered b hb
        exact hok.keep (hkeeps _ _ hok.known.1 (mem_claimedTriggers (Or.inr ⟨b, hb, rfl⟩)))
      · rcases (Table.mem_insert (h := hnew)).mp hrow with hrow | rfl
        · exact h.store.silent row hrow hn
        · exact fun h => by cases h
      · exact hc.keep fun e he => hkeeps _ e (hc.known e he).1 (mem_claimedTriggers (Or.inl ⟨k, c, hfind, he⟩))
    · cases hstep
  | claim tx inboxId request locked now =>
    simp only [InboxContext.step] at hstep
    split at hstep
    · obtain rfl := Option.some.inj hstep
      refine h.put (fun _ _ _ => trivial) h.store (fun c hc => ?_) (fun _ _ hc => hc) fun _ _ _ _ => trivial
      obtain rfl := Option.some.inj hc
      have hknown : ∀ e ∈ InboxContext.claimRows s tx inboxId request locked now, Known s.store.table inboxId e :=
        fun e he => known_of_mem_rows he
      exact ⟨hknown, fun q hq => target_of_mem_contextQueries hq,
        planExact_contextQueries hknown (rows_ids_nodup _ _ _ _ _) hguard none, by simp⟩
    · cases hstep
  | query tx locked =>
    simp only [InboxContext.step] at hstep
    split at hstep
    · next c hfind =>
      split at hstep
      · cases hstep
      · next q rest htodo =>
        obtain rfl := Option.some.inj hstep
        refine h.put (fun _ _ _ => trivial) h.store (fun c' hc' => ?_) (fun _ _ hc => hc) fun _ _ _ _ => trivial
        obtain rfl := Option.some.inj hc'
        exact runQuery_ok (h.own tx c hfind) htodo
    · cases hstep
  | commit tx =>
    simp only [InboxContext.step] at hstep
    split at hstep
    · next c hfind =>
      split at hstep
      · obtain rfl := Option.some.inj hstep
        have hc := h.own tx c hfind
        have hsame : SameNotify s.store.table (s.store.table.updateWhere (fun row => decide (row.id ∈ c.claimed.map (·.id)))
            (markDelivered c.now) fun _ => rfl) := sameNotify_updateWhere _ fun r => .refl r
        refine h.put (fun _ _ _ => trivial) ⟨fun b hb => ?_, silent_commit hc.known h.store.silent⟩ (by simp)
          (fun c' _ hc' => ?_) (by simp)
        · rcases List.mem_append.mp hb with hb | hb
          · exact (h.store.delivered b hb).keep (keeps_of_sameNotify hsame _ _)
          · exact (hc.bundles b hb).1.keep (keeps_of_sameNotify hsame _ _)
        · exact hc'.keep fun e _ => keeps_of_sameNotify hsame _ e
      · cases hstep
    · cases hstep
  | abort tx =>
    obtain ⟨c, _, rfl⟩ := Option.map_eq_some_iff.mp hstep
    exact h.put (fun _ _ _ => trivial) h.store (by simp) (fun _ _ hc => hc) (by simp)
  | recover inboxId chatId =>
    exact sound_whenUnheld h hstep (sameNotify_of_evolves (InboxAux.tableEvolves_recover _ _ _))
      (silent_updateWhere (f := markPending) (fun _ => rfl) (fun _ h => by cases h) h.store.silent)
  | resetDelivered inboxIds =>
    exact sound_whenUnheld h hstep (sameNotify_of_evolves (InboxAux.tableEvolves_resetDelivered _ _))
      (silent_updateWhere (f := markPending) (fun _ => rfl) (fun _ h => by cases h) h.store.silent)
  | ack entryId inboxIds snapshot now =>
    exact sound_whenUnheld h hstep (sameNotify_of_evolves (AckAux.tableEvolves_ack _ _ _ _ _)) (silent_ack h.store.silent _ _ _ _)
  | pruneAcked =>
    refine sound_whenUnheld h hstep (sameNotify_deleteWhere _ fun r hr => ?_) fun row hrow =>
      h.store.silent row (Table.mem_deleteWhere.mp hrow).1
    simp only [InboxContext.isAckedSilent, Bool.and_eq_true, Bool.not_eq_true'] at hr
    exact hr.1
  | pruneStale before =>
    refine sound_whenUnheld h hstep (sameNotify_deleteWhere _ fun r hr => ?_) fun row hrow =>
      h.store.silent row (Table.mem_deleteWhere.mp hrow).1
    simp only [InboxContext.isStaleSilent, Bool.and_eq_true, Bool.not_eq_true'] at hr
    exact hr.1.1

/-- Every state of a run without holes meets the invariant. -/
theorem sound_run {tables : ContextTables Key} {ops : List (ContextOp Key Tx)} {s : ContextSystem Key Tx}
    (h : Run (Guarded InboxContext.NoHole (ofPartial (InboxContext.step tables))) InboxContext.init ops s) : Sound s := by
  refine h.invariant (fun s op s' hs hstep => sound_step hs hstep.1 hstep.2) (Invariant.idle ⟨nofun, nofun⟩)

/-! ## The same trigger again -/

/-- The bundle of the next statement is made from an open claim. -/
theorem nextBundle_eq_some {tables : ContextTables Key} {s : ContextSystem Key Tx} {tx : Tx} {locked : Nat → Bool} {b : Bundle Key}
    (h : InboxContext.nextBundle tables s tx locked = some b) : ∃ c chatId trigger rest, s.find tx = some c ∧
      c.todo = .preceding chatId trigger :: rest ∧ b = InboxContext.bundleFor tables s tx locked c chatId trigger := by
  simp only [InboxContext.nextBundle, Option.bind_eq_bind, Option.bind_eq_some_iff] at h
  obtain ⟨c, hfind, q, hq, h⟩ := h
  obtain ⟨rest, htodo⟩ := List.head?_eq_some_iff.mp hq
  cases q with
  | previousNotify chatId firstTriggerId => cases h
  | preceding chatId trigger => exact ⟨c, chatId, trigger, rest, hfind, htodo, (Option.some.inj h).symm⟩

/-- The pending silent rows of the chat of a trigger below it. -/
def isSilentBelow (b : Bundle Key) (row : InboxEntry Key) : Bool :=
  decide (row.inboxId = b.inboxId) && decide (row.chatId = some b.chatId) && decide (row.status = .pending) && !row.notify &&
    decide (row.id < b.trigger.id)

/-- What a later state has kept of the state a bundle was made in. -/
structure KeptSince (s : ContextSystem Key Tx) (b : Bundle Key) (s' : ContextSystem Key Tx) : Prop where
  silent : s'.store.table.select (isSilentBelow b) = s.store.table.select (isSilentBelow b)
  dates : ∀ row ∈ s.store.table.select (isSilentBelow b), s'.store.createdAt row.id = s.store.createdAt row.id
  date : s'.store.createdAt b.trigger.id = s.store.createdAt b.trigger.id
  known : Known s'.store.table b.inboxId b.trigger
  cursor : previousNotify s'.store.table b.inboxId b.chatId b.trigger.id =
    previousNotify s.store.table b.inboxId b.chatId b.trigger.id

omit [DecidableEq Tx] in
/-- A change of the table that keeps the notify rows and the pending silent rows below the trigger keeps what was kept. -/
theorem KeptSince.of_table {s s₁ s₂ : ContextSystem Key Tx} {b : Bundle Key} (h : KeptSince s b s₁)
    (hdates : s₂.store.createdAt = s₁.store.createdAt) (hsame : SameNotify s₁.store.table s₂.store.table)
    (hsilent : s₂.store.table.select (isSilentBelow b) = s₁.store.table.select (isSilentBelow b)) : KeptSince s b s₂ where
  silent := hsilent.trans h.silent
  dates := hdates ▸ h.dates
  date := hdates ▸ h.date
  known := h.known.of_sameNotify hsame
  cursor := (hsame.previousNotify _ _ _).trans h.cursor

omit [DecidableEq Tx] in
/-- An update of rows that are not pending silent rows, and do not become so. -/
theorem KeptSince.whenUnheld {s s₁ s₂ : ContextSystem Key Tx} {b : Bundle Key} (h : KeptSince s b s₁) {p q : InboxEntry Key → Bool}
    (hstep : InboxContext.whenUnheld s₁ q (s₁.store.table.updateWhere p markPending fun _ => rfl) = some s₂)
    (hp : ∀ row ∈ s₁.store.table.rows, p row = true → row.notify = true ∧ row.status = .delivered) : KeptSince s b s₂ := by
  have hsame : SameNotify s₁.store.table (s₁.store.table.updateWhere p markPending fun _ => rfl) :=
    sameNotify_updateWhere _ fun r => .refl r
  have hselect : (s₁.store.table.updateWhere p markPending fun _ => rfl).select (isSilentBelow b) =
      s₁.store.table.select (isSilentBelow b) := by
    refine Table.select_updateWhere fun r hr hpr => ?_
    obtain ⟨hn, _⟩ := hp r hr hpr
    simp [isSilentBelow, markPending, hn]
  unfold InboxContext.whenUnheld at hstep
  split at hstep
  · obtain rfl := Option.some.inj hstep
    exact h.of_table rfl hsame hselect
  · cases hstep

/-- A step that disturbs nothing keeps what was kept. -/
theorem keptSince_step {tables : ContextTables Key} {s s₁ s₂ : ContextSystem Key Tx} {b : Bundle Key} {op : ContextOp Key Tx}
    (hsound : Sound s₁) (h : KeptSince s b s₁) (hchat : b.trigger.chatId = some b.chatId) (hop : InboxContext.Undisturbed b op)
    (hstep : InboxContext.step tables s₁ op = some s₂) : KeptSince s b s₂ := by
  cases op with
  | insert id inboxId messageId chatId notify createdAt =>
    simp only [InboxContext.step] at hstep
    split at hstep
    · next hnew =>
      obtain rfl := Option.some.inj hstep
      have hother : ∀ row ∈ s₁.store.table.rows, Function.update s₁.store.createdAt id createdAt row.id =
          s₁.store.createdAt row.id := by
        intro row hrow
        rw [Function.update_of_ne]
        rintro rfl
        exact hnew (List.mem_map_of_mem hrow)
      obtain ⟨hinbox, hnotify, row, hrow, hsame⟩ := h.known
      have hkeeps : Keeps s₁.store.table (s₁.store.table.insert (InboxServer.newEntry id inboxId messageId chatId notify) hnew)
          b.inboxId b.trigger :=
        keeps_insert hinbox fun _ hi hc => hop (hi.symm.trans hinbox) (hc.symm.trans hchat)
      refine ⟨?_, fun r hr => ?_, ?_, hkeeps.known h.known, (hkeeps.cursor b.chatId hchat).trans h.cursor⟩
      · refine Eq.trans (Table.select_insert (h := hnew) s₁.store.table ?_) h.silent
        rw [Bool.eq_false_iff]
        intro hb
        simp only [isSilentBelow, Bool.and_eq_true, decide_eq_true_eq] at hb
        have hlt : id < b.trigger.id := hb.2
        have hle := hop hb.1.1.1.1 hb.1.1.1.2
        omega
      · have hmem := hr
        rw [← h.silent] at hmem
        exact (hother r (Table.mem_select.mp hmem).1).trans (h.dates r hr)
      · have := hother row hrow
        rw [hsame.1] at this
        exact this.trans h.date
    · cases hstep
  | claim tx inboxId request locked now =>
    simp only [InboxContext.step] at hstep
    split at hstep
    · obtain rfl := Option.some.inj hstep
      exact h.of_table (by simp) (by simpa using .refl _) (by simp)
    · cases hstep
  | query tx locked =>
    simp only [InboxContext.step] at hstep
    split at hstep
    · split at hstep
      · cases hstep
      · obtain rfl := Option.some.inj hstep
        exact h.of_table (by simp) (by simpa using .refl _) (by simp)
    · cases hstep
  | commit tx =>
    simp only [InboxContext.step] at hstep
    split at hstep
    · next c hfind =>
      split at hstep
      · obtain rfl := Option.some.inj hstep
        have hc := hsound.own tx c hfind
        have hsame : SameNotify s₁.store.table (s₁.store.table.updateWhere (fun row => decide (row.id ∈ c.claimed.map (·.id)))
            (markDelivered c.now) fun _ => rfl) := sameNotify_updateWhere _ fun r => .refl r
        have hselect : (s₁.store.table.updateWhere (fun row => decide (row.id ∈ c.claimed.map (·.id)))
            (markDelivered c.now) fun _ => rfl).select (isSilentBelow b) = s₁.store.table.select (isSilentBelow b) := by
          refine Table.select_updateWhere fun r hr hp => ?_
          obtain ⟨e, he, hid⟩ := List.mem_map.mp (of_decide_eq_true hp)
          obtain ⟨_, hnotify, r', hr', hsame⟩ := hc.known e he
          obtain rfl : r' = r := row_unique hr' hr (hsame.1.trans hid)
          have hrn : r'.notify = true := hsame.2.2.2.2.trans hnotify
          simp [isSilentBelow, markDelivered, hrn]
        exact h.of_table rfl hsame hselect
      · cases hstep
    · cases hstep
  | abort tx =>
    obtain ⟨c, _, rfl⟩ := Option.map_eq_some_iff.mp hstep
    exact h.of_table (by simp) (by simpa using .refl _) (by simp)
  | recover inboxId chatId =>
    refine h.whenUnheld hstep fun row _ hp => ?_
    simp only [isUnackedInScope, Bool.and_eq_true, decide_eq_true_eq] at hp
    exact ⟨hp.1.1.2, hp.2⟩
  | resetDelivered inboxIds =>
    refine h.whenUnheld hstep fun row hrow hp => ?_
    simp only [Bool.and_eq_true, decide_eq_true_eq] at hp
    refine ⟨?_, hp.2⟩
    by_contra hn
    exact hsound.store.silent row hrow (by simpa using hn) hp.2
  | ack => exact hop.elim
  | pruneAcked => exact hop.elim
  | pruneStale => exact hop.elim

/-- The window of a bundle is a part of the pending silent rows below its trigger. -/
theorem window_eq_filter (tables : ContextTables Key) (createdAt : CreatedAt) (b : Bundle Key) :
    b.window tables createdAt = (b.asOf.select (isSilentBelow b)).filter fun row =>
      b.previousNotifyId.all (fun previous => decide (previous < row.id)) &&
        contextWindow tables createdAt b.inboxId b.trigger row := by
  simp only [Bundle.window, Table.select, List.filter_filter]
  refine List.filter_congr fun row _ => ?_
  simp only [inPrecedingWindow, isSilentBelow]
  generalize (decide (row.inboxId = b.inboxId) && decide (row.chatId = some b.chatId) && decide (row.status = .pending) &&
    !row.notify && decide (row.id < b.trigger.id)) = silent
  rw [Bool.and_comm (_ && _) silent, Bool.and_assoc]

omit [DecidableEq Tx] in
/-- What a bundle is made in has kept it all. -/
theorem keptSince_refl {s : ContextSystem Key Tx} {b : Bundle Key} (h : Known s.store.table b.inboxId b.trigger) : KeptSince s b s :=
  ⟨rfl, fun _ _ => rfl, rfl, h, rfl⟩

/-- The next bundle of a sound state is of a known trigger, whose cursor is the notify row before it. -/
theorem nextBundle_ok {tables : ContextTables Key} {s : ContextSystem Key Tx} {tx : Tx} {locked : Nat → Bool} {b : Bundle Key}
    (hs : Sound s) (h : InboxContext.nextBundle tables s tx locked = some b) :
    Known s.store.table b.inboxId b.trigger ∧ b.trigger.chatId = some b.chatId ∧ b.asOf = s.store.table ∧
      b.previousNotifyId = previousNotify s.store.table b.inboxId b.chatId b.trigger.id ∧
        b.preceding = precedingRows tables (b.window tables s.store.createdAt) b.skipped := by
  obtain ⟨c, chatId, trigger, rest, hfind, htodo, rfl⟩ := nextBundle_eq_some h
  have hc := hs.own tx c hfind
  have hplan := hc.plan
  rw [htodo] at hplan
  obtain ⟨e, he, hchat, _, heq⟩ := hc.targets (.preceding chatId trigger) (htodo ▸ List.mem_cons_self)
  obtain rfl := heq chatId trigger rfl
  exact ⟨hc.known trigger he, hchat, rfl, hplan.1, rfl⟩

omit [DecidableEq Tx] in
/-- The window of a trigger reads the same in two states when the later one has kept the pending silent rows below the trigger. -/
theorem window_again (tables : ContextTables Key) {s s' : ContextSystem Key Tx} {b b' : Bundle Key} (h : KeptSince s b s')
    (hsame : SameRow b.trigger b'.trigger) (hinbox : b.inboxId = b'.inboxId) (hchat : b.chatId = b'.chatId)
    (hasOf : b.asOf = s.store.table) (hasOf' : b'.asOf = s'.store.table) (hcursor : b.previousNotifyId = b'.previousNotifyId) :
    b.window tables s.store.createdAt = b'.window tables s'.store.createdAt := by
  have hbelow : isSilentBelow b' = isSilentBelow b := by
    funext row
    simp only [isSilentBelow, hinbox, hchat, hsame.1]
  rw [window_eq_filter, window_eq_filter, hbelow, hasOf, hasOf', h.silent]
  refine List.filter_congr fun row hrow => ?_
  simp only [contextWindow, isOrientationContinuation, ← hsame.1, ← hsame.2.2.1, ← hinbox, ← hcursor, h.dates row hrow, h.date]

end SilentContextAux

open SilentContextAux

/-! ## The result -/

/-- In every run whose claims leave no hole in their batch, and whose notify rows commit above the claimed triggers of their chat,
silent context is given to one trigger. -/
theorem silent_context_given_once (tables : ContextTables Key) :
    InboxContext.GivenOnce tables
      (Guarded (fun s : ContextSystem Key Tx => InboxContext.NoHole s) (ofPartial (InboxContext.step tables))) where
  exact ops s h b hb := ((sound_run h).store.delivered b hb).exact
  separate ops s h b hb b' hb' := ((sound_run h).store.delivered b hb).separate ((sound_run h).store.delivered b' hb')
  again ops s ops' s' tx tx' locked locked' b b' h hb h' hquiet hb' hid := by
    have hs := sound_run h
    have hs' := sound_run (h.append h')
    obtain ⟨hknown, hchat, hasOf, hcursor, hrows⟩ := nextBundle_ok hs hb
    obtain ⟨hknown', hchat', hasOf', hcursor', hrows'⟩ := nextBundle_ok hs' hb'
    have hkept : KeptSince s b s' := by
      clear hb' hs' hknown' hasOf' hcursor' hrows'
      induction h' with
      | nil => exact keptSince_refl hknown
      | snoc hrun hstep ih =>
        have hquietInit := fun op hop => hquiet op (List.mem_append_left _ hop)
        have hlast := hquiet _ (List.mem_append_right _ List.mem_cons_self)
        exact keptSince_step (sound_run (h.append hrun)) (ih hquietInit) hchat hlast hstep.2
    -- Both triggers are versions of the one row with their id.
    obtain ⟨hinbox, _, row, hrow, hsame⟩ := hkept.known
    obtain ⟨hinbox', _, row', hrow', hsame'⟩ := hknown'
    obtain rfl : row = row' := row_unique hrow hrow' (hsame.1.trans (hid.trans hsame'.1.symm))
    have htriggers : SameRow b.trigger b'.trigger := hsame.symm.trans hsame'
    have hinboxes : b.inboxId = b'.inboxId := by rw [← hinbox, ← hinbox', htriggers.2.1]
    have hchats : b.chatId = b'.chatId := Option.some.inj (by rw [← hchat, ← hchat', htriggers.2.2.2.1])
    have hcursors : b.previousNotifyId = b'.previousNotifyId := by
      rw [hcursor, hcursor', ← hkept.cursor, hinboxes, hchats, hid]
    have hwindow := window_again tables hkept htriggers hinboxes hchats hasOf hasOf' hcursors
    exact ⟨hcursors, hwindow, fun hskipped => by rw [hrows, hrows', hwindow, hskipped]⟩

namespace SilentContextExample

/-- Messages in the order of their numbers, none of them part of an orientation. -/
def tables : ContextTables Nat :=
  { messages := fun m => { createdAt := m, orientationBootstrap := false, continuationTarget := none }, inboxAgent := id }

/-- The fan-out of message `id` to the inbox: a notify row or a silent one. -/
def row (id : Nat) (notify : Bool) : ContextOp Nat Nat := .insert id 0 id (some 0) notify id

/-- The first trigger is claimed and committed, then the second is claimed with the silent row between the two. A recovery resets the
first trigger; a claim takes it together with the third, skipping the second, which commits before the third looks for silent rows. -/
def holeOps : List (ContextOp Nat Nat) :=
  [row 1 true, row 2 false, row 3 true, row 4 true,
    .claim 0 0 (.poll 1) (fun _ => false) 5, .query 0 (fun _ => false), .query 0 (fun _ => false), .commit 0,
    .claim 1 0 (.poll 1) (fun _ => false) 6, .query 1 (fun _ => false), .query 1 (fun _ => false),
    .recover 0 (some 0), .claim 2 0 (.poll 10) (fun _ => false) 7, .commit 1,
    .query 2 (fun _ => false), .query 2 (fun _ => false), .query 2 (fun _ => false), .commit 2]

/-- The same rows with the first two triggers claimed in one batch, reset, and claimed again with the third. -/
def againOps : List (ContextOp Nat Nat) :=
  [row 1 true, row 2 false, row 3 true,
    .claim 0 0 (.poll 10) (fun _ => false) 5, .query 0 (fun _ => false), .query 0 (fun _ => false),
      .query 0 (fun _ => false), .commit 0,
    row 4 true, .recover 0 (some 0), .claim 2 0 (.poll 10) (fun _ => false) 7,
    .query 2 (fun _ => false), .query 2 (fun _ => false), .query 2 (fun _ => false), .query 2 (fun _ => false), .commit 2]

/-- The triggers of the delivered bundles, with the silent rows of each. -/
def given (s : ContextSystem Nat Nat) : List (Nat × Nat × Nat × List Nat) :=
  s.store.delivered.map fun b => (b.inboxId, b.chatId, b.trigger.id, b.preceding.map (·.id))

/-- A run without holes: the second trigger gets its silent row again, and the third gets none. -/
example : (againOps.foldlM (fun s op => if InboxContext.NoHole s op then InboxContext.step tables s op else none)
    InboxContext.init).map given =
      some [(0, 0, 1, []), (0, 0, 3, [2]), (0, 0, 1, []), (0, 0, 3, [2]), (0, 0, 4, [])] := by
  decide

end SilentContextExample

open SilentContextExample in
/-- A batch with a hole gives a silent row to two triggers: not every run gives silent context once. -/
theorem silent_context_given_twice :
    ¬ ∀ tables : ContextTables Nat, InboxContext.GivenOnce tables
      (ofPartial (fun s : ContextSystem Nat Nat => InboxContext.step tables s)) := by
  intro h
  have hgiven : (holeOps.foldlM (InboxContext.step tables) InboxContext.init).map given =
      some [(0, 0, 1, []), (0, 0, 3, [2]), (0, 0, 1, []), (0, 0, 4, [2])] := by
    decide
  obtain ⟨s, hs, hlist⟩ := Option.map_eq_some_iff.mp hgiven
  have hrun : Run (ofPartial (InboxContext.step tables)) InboxContext.init holeOps s := Run.of_foldlM hs
  have hsecond : (0, 0, 3, [2]) ∈ given s := by rw [hlist]; decide
  have hthird : (0, 0, 4, [2]) ∈ given s := by rw [hlist]; decide
  obtain ⟨b, hb, heq⟩ := List.mem_map.mp hsecond
  obtain ⟨b', hb', heq'⟩ := List.mem_map.mp hthird
  simp only [Prod.mk.injEq] at heq heq'
  have hrow : 2 ∈ b.preceding.map (·.id) := by simp [heq.2.2.2]
  have hrow' : 2 ∈ b'.preceding.map (·.id) := by simp [heq'.2.2.2]
  obtain ⟨r, hr, hid⟩ := List.mem_map.mp hrow
  obtain ⟨r', hr', hid'⟩ := List.mem_map.mp hrow'
  exact (h tables).separate holeOps s hrun b hb b' hb' (heq.1.trans heq'.1.symm) (heq.2.1.trans heq'.2.1.symm) (by omega)
    r hr r' hr' (hid.trans hid'.symm)

end FirstTree
