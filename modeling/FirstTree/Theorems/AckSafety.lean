import FirstTree.Lemmas.AckThrough
import FirstTree.Server.InboxServer
import FirstTree.Theorems.FlowControl

/-!
# An ACK-through keeps the queue safe

Every run of a server with any number of sockets. An ACK commits notify rows only when they were delivered and are in flight on the
socket that sent it, and drains the silent rows behind them; a refused ACK and an ACK of a committed prefix change nothing.
-/

namespace FirstTree

open Inbox InboxInFlight InboxSocket

variable {Key Socket : Type} [DecidableEq Key] [DecidableEq Socket]

/-- What a socket has in flight, or claimed and not yet filed, are rows of the table, filed under their chat. -/
structure Filed (t : InboxTable Key) (s : InboxSocket Key) : Prop where
  owners : ∀ e o, s.inFlight.inboxInFlightOwnersByEntryId e = some o → ∃ r ∈ t.rows, r.id = e ∧ r.chatId = o.chatKey
  claimed : ∀ a es, s.running = some (.claimed a es) → ∀ e ∈ es, ∃ r ∈ t.rows, r.id = e.id ∧ r.chatId = e.chatId

namespace AckSafetyAux

open InboxAux AckAux InFlightAux FlowAux

/-! ## What a step of a socket does -/

/-- The first index files no entry that the second does not. -/
def OwnersSub (f f' : InboxInFlight Key) : Prop :=
  ∀ e o, f.inboxInFlightOwnersByEntryId e = some o → f'.inboxInFlightOwnersByEntryId e = some o

/-- Removing entries files none. -/
theorem ownersSub_remove (f : InboxInFlight Key) (es : List Nat) : OwnersSub (f.removeInboxInFlight es) f := by
  induction es generalizing f with
  | nil => exact fun _ _ h => h
  | cons e es ih =>
    intro e' o h
    have hone := ih (f.removeOne e) e' o h
    rw [owners_removeOne] at hone
    split at hone
    · exact absurd hone (by simp)
    · exact hone

/-- Clearing an agent files no entry. -/
theorem ownersSub_clear (f : InboxInFlight Key) (a : Key) : OwnersSub (f.clearInboxInFlightForAgent a) f := by
  intro e o h
  unfold clearInboxInFlightForAgent at h
  split at h
  · exact h
  · simp only at h
    split at h
    · exact absurd h (by simp)
    · exact h

omit [DecidableEq Key] in
/-- The entries of a claim are rows of the table. -/
theorem claimed_rows {t : InboxTable Key} {targets : List (InboxEntry Key)} (now : Nat) (htargets : ∀ r ∈ targets, r ∈ t.rows) :
    ∀ e ∈ (claim t targets now).1, ∃ r ∈ t.rows, r.id = e.id ∧ r.chatId = e.chatId := by
  intro e he
  obtain ⟨r, hr, rfl⟩ := mem_claim.mp he
  exact ⟨r, htargets r hr, rfl, rfl⟩

/-- What a drain does to the table, and where its entries come from. -/
theorem drain_spec {cfg : InboxDeliveryConfig} {t t' : InboxTable Key} {s : InboxSocket Key} {a i : Key}
    {trigger : DrainTrigger Key} {routed failed : Bool} {locked : Nat → Bool} {now : Nat} {entries : List (InboxEntry Key)}
    (hd : s.drainBacklogForAgent cfg t a i trigger routed failed locked now = some (entries, t')) :
    TableEvolves t t' ∧ ∀ e ∈ entries, ∃ r ∈ t.rows, r.id = e.id ∧ r.chatId = e.chatId := by
  have hforChat : ∀ c limit, TableEvolves t (claimBacklogForPushForChat t i c limit locked now).2 ∧
      ∀ e ∈ (claimBacklogForPushForChat t i c limit locked now).1, ∃ r ∈ t.rows, r.id = e.id ∧ r.chatId = e.chatId := by
    intro c limit
    refine ⟨tableEvolves_poll t i limit (some c) locked now, claimed_rows now fun r hr => ?_⟩
    have hsel := List.mem_of_mem_take hr
    rw [Table.mem_selectBy] at hsel
    exact hsel.1
  have hfair : ∀ limit dflt budgets, TableEvolves t (claimBacklogForPushFair t i limit dflt budgets locked now).2 ∧
      ∀ e ∈ (claimBacklogForPushFair t i limit dflt budgets locked now).1, ∃ r ∈ t.rows, r.id = e.id ∧ r.chatId = e.chatId := by
    intro limit dflt budgets
    refine ⟨tableEvolves_fair t i limit dflt budgets locked now, ?_⟩
    unfold claimBacklogForPushFair
    split
    · simp
    · simp only
      split
      · simp
      · exact claimed_rows now fun r hr => (mem_fairEligible (List.mem_of_mem_filter hr)).1
  have hboth : TableEvolves t (s.drainClaim cfg t a i trigger locked now).2 ∧
      ∀ e ∈ (s.drainClaim cfg t a i trigger locked now).1, ∃ r ∈ t.rows, r.id = e.id ∧ r.chatId = e.chatId := by
    cases trigger with
    | recover c => exact hforChat c _
    | _ => exact hfair _ _ _
  rw [drainClaim_of_some hd] at hboth
  exact hboth

/-- What a step of a socket does to the table and to what the socket has filed: the table evolves, the index files no new entry
unless a drain ends, and a claim that is awaited is the one awaited before or one of rows of the table. -/
theorem step_spec {cfg : InboxDeliveryConfig} {t t' : InboxTable Key} {s s' : InboxSocket Key} {op : SocketOp Key}
    {frames : List (ServerFrame Key)} (hstep : InboxSocket.step cfg t s op = some (t', s', frames)) :
    TableEvolves t t' ∧
      (OwnersSub s'.inFlight s.inFlight ∨ ∃ a es sent, s.running = some (.claimed a es) ∧
        s'.inFlight = (sendEntries s.inFlight a es sent).1) ∧
      ∀ a es, s'.running = some (.claimed a es) → s.running = some (.claimed a es) ∨
        ∀ e ∈ es, ∃ r ∈ t.rows, r.id = e.id ∧ r.chatId = e.chatId := by
  have hsame : TableEvolves t t ∧ OwnersSub s.inFlight s.inFlight := ⟨tableEvolves_refl t, fun _ _ h => h⟩
  cases op with
  | bindLocalAgent a i =>
    cases hstep
    exact ⟨hsame.1, Or.inl hsame.2, fun _ _ h => Or.inl h⟩
  | resetOnBind a failed =>
    simp only [step, Option.map_eq_some_iff] at hstep
    obtain ⟨i, _, hstep⟩ := hstep
    cases hstep
    refine ⟨?_, Or.inl hsame.2, fun _ _ h => Or.inl h⟩
    split
    · exact hsame.1
    · exact tableEvolves_resetDelivered t [i]
  | unbind a =>
    cases hstep
    exact ⟨hsame.1, Or.inl (ownersSub_clear _ a), fun _ _ h => Or.inl h⟩
  | dropLocalAgentBinding a =>
    cases hstep
    exact ⟨hsame.1, Or.inl (ownersSub_clear _ a), fun _ _ h => Or.inl h⟩
  | leaveOpen =>
    cases hstep
    exact ⟨hsame.1, Or.inl hsame.2, fun _ _ h => Or.inl h⟩
  | close =>
    cases hstep
    exact ⟨hsame.1, Or.inl (fun _ _ h => absurd h (by simp [InboxSocket.close, InboxInFlight.empty])), fun _ _ h => Or.inl h⟩
  | startDrain a i trigger =>
    simp only [step] at hstep
    split at hstep
    · cases hstep
      exact ⟨hsame.1, Or.inl hsame.2, fun _ _ h => absurd h (by simp)⟩
    · exact absurd hstep (by simp)
  | routeDrain here =>
    simp only [step] at hstep
    split at hstep
    · cases hstep
      refine ⟨hsame.1, Or.inl hsame.2, fun _ _ h => absurd h ?_⟩
      simp only
      split <;> simp
    · exact absurd hstep (by simp)
  | runDrain routed failed locked now =>
    simp only [step] at hstep
    split at hstep
    · split at hstep
      · cases hstep
        exact ⟨hsame.1, Or.inl hsame.2, fun _ _ h => absurd h (by simp)⟩
      · rename_i entries t'' hd
        cases hstep
        obtain ⟨hevolves, hrows⟩ := drain_spec hd
        refine ⟨hevolves, Or.inl hsame.2, fun a es h => ?_⟩
        simp only [Option.some.injEq, QueueOp.claimed.injEq] at h
        exact Or.inr (h.2 ▸ hrows)
    · exact absurd hstep (by simp)
  | finishDrain sent =>
    simp only [step] at hstep
    split at hstep
    · rename_i a es hrun
      cases hstep
      exact ⟨hsame.1, Or.inr ⟨a, es, _, hrun, rfl⟩, fun _ _ h => absurd h (by simp)⟩
    · exact absurd hstep (by simp)
  | routeAck entryId ref =>
    simp only [step] at hstep
    split at hstep
    · cases hstep
      exact ⟨hsame.1, Or.inl hsame.2, fun _ _ h => absurd h (by simp)⟩
    · exact absurd hstep (by simp)
  | startAck entryId ref routed failed now =>
    simp only [step] at hstep
    split at hstep
    · split at hstep
      · split at hstep
        · cases hstep
          exact ⟨hsame.1, Or.inl hsame.2, fun _ _ h => absurd h (by simp)⟩
        · cases hstep
          exact ⟨tableEvolves_ack t entryId _ _ now, Or.inl hsame.2, fun _ _ h => absurd h (by simp)⟩
      · exact absurd hstep (by simp)
    · exact absurd hstep (by simp)
  | finishAck =>
    simp only [step] at hstep
    split at hstep
    · rename_i entryId ref routed result hrun
      cases hstep
      refine ⟨hsame.1, Or.inl ?_, fun a es h => ?_⟩
      · cases result with
        | rejected reason => exact hsame.2
        | ok throughEntry disposition ids =>
          unfold InboxSocket.finishAck
          simp only
          split
          · exact hsame.2
          · split
            · exact hsame.2
            · exact ownersSub_remove _ _
      · cases result with
        | rejected reason => exact absurd h (by simp [InboxSocket.finishAck])
        | ok throughEntry disposition ids =>
          unfold InboxSocket.finishAck at h
          simp only at h
          split at h
          · exact absurd h (by simp)
          · split at h <;> exact absurd h (by simp)
    · exact absurd hstep (by simp)
  | routeRecover a c ref =>
    simp only [step] at hstep
    split at hstep
    · cases hstep
      rcases routeRecover_spec s a c ref with hs' | ⟨i, hs'⟩ <;> rw [hs']
      · exact ⟨hsame.1, Or.inl hsame.2, fun _ _ h => Or.inl h⟩
      · exact ⟨hsame.1, Or.inl hsame.2, fun _ _ h => absurd h (by simp)⟩
    · exact absurd hstep (by simp)
  | startRecover routed failed =>
    simp only [step] at hstep
    split at hstep
    · rename_i a i c ref _
      have hpair := Option.some.inj hstep
      have ht' : (s.startRecover t a i c ref routed failed).1 = t' := by rw [hpair]
      have hs' : (s.startRecover t a i c ref routed failed).2.1 = s' := by rw [hpair]
      rw [← ht', ← hs']
      rcases startRecover_spec t s a i c ref routed failed with ⟨ht, hs⟩ | ⟨_, ht, hs⟩ <;> rw [ht, hs]
      · exact ⟨hsame.1, Or.inl hsame.2, fun _ _ h => absurd h (by simp)⟩
      · exact ⟨tableEvolves_recover t i (some c), Or.inl hsame.2, fun _ _ h => absurd h (by simp)⟩
    · exact absurd hstep (by simp)
  | finishRecover =>
    simp only [step] at hstep
    split at hstep
    · rename_i a i c ref prior ids hrun
      cases hstep
      obtain ⟨hflight, _, hnext, _⟩ := finishRecover_spec s a i c ref prior ids
      refine ⟨hsame.1, Or.inl ?_, fun a' es h => ?_⟩
      · rw [hflight]
        exact ownersSub_remove _ _
      · rcases hnext with hnext | hnext <;> rw [hnext] at h <;> exact absurd h (by simp)
    · exact absurd hstep (by simp)
  | countRecover failed =>
    simp only [step] at hstep
    split at hstep
    · split at hstep <;> cases hstep <;> exact ⟨hsame.1, Or.inl hsame.2, fun _ _ h => absurd h (by simp)⟩
    · exact absurd hstep (by simp)

/-! ## What a server keeps -/

/-- The entries of a send loop are filed under their chats. -/
theorem owners_sendEntries (f : InboxInFlight Key) (a : Key) (entries : List (InboxEntry Key)) (sent : Nat) (e : Nat)
    (o : InboxInFlightOwner Key) (h : (sendEntries f a entries sent).1.inboxInFlightOwnersByEntryId e = some o) :
    f.inboxInFlightOwnersByEntryId e = some o ∨ ∃ en ∈ entries, en.id = e ∧ en.chatId = o.chatKey := by
  have hadd : ∀ (f : InboxInFlight Key) (c : Option Key) (id : Nat),
      (f.addInboxInFlight a c id).inboxInFlightOwnersByEntryId e = some o →
        f.inboxInFlightOwnersByEntryId e = some o ∨ (id = e ∧ c = o.chatKey) := by
    intro f c id hown
    simp only [addInboxInFlight] at hown
    split at hown
    · rename_i he
      cases hown
      exact Or.inr ⟨he.symm, rfl⟩
    · exact Or.inl (ownersSub_remove f [id] e o hown)
  induction entries generalizing f sent with
  | nil => exact Or.inl h
  | cons entry rest ih =>
    cases sent with
    | zero =>
      rcases hadd f entry.chatId entry.id (ownersSub_remove _ [entry.id] e o h) with h | ⟨hid, hchat⟩
      · exact Or.inl h
      · exact Or.inr ⟨entry, List.mem_cons_self, hid, hchat⟩
    | succ sent =>
      rcases ih _ sent h with h | ⟨en, hen, hid, hchat⟩
      · rcases hadd f entry.chatId entry.id h with h | ⟨hid, hchat⟩
        · exact Or.inl h
        · exact Or.inr ⟨entry, List.mem_cons_self, hid, hchat⟩
      · exact Or.inr ⟨en, List.mem_cons_of_mem _ hen, hid, hchat⟩

omit [DecidableEq Key] in
/-- What is filed stays filed when the table grows. -/
theorem filed_grows {t t' : InboxTable Key} {s : InboxSocket Key} (h : Filed t s) (ht : TableGrows t t') : Filed t' s where
  owners := by
    intro e o hown
    obtain ⟨r, hr, hid, hchat⟩ := h.owners e o hown
    obtain ⟨r', hr', hrow⟩ := ht.rows r hr
    exact ⟨r', hr', hrow.id_eq.trans hid, hrow.chatId_eq.trans hchat⟩
  claimed := by
    intro a es hrun e he
    obtain ⟨r, hr, hid, hchat⟩ := h.claimed a es hrun e he
    obtain ⟨r', hr', hrow⟩ := ht.rows r hr
    exact ⟨r', hr', hrow.id_eq.trans hid, hrow.chatId_eq.trans hchat⟩

/-- A step of a socket keeps what is filed filed. -/
theorem filed_step {cfg : InboxDeliveryConfig} {t t' : InboxTable Key} {s s' : InboxSocket Key} {op : SocketOp Key}
    {frames : List (ServerFrame Key)} (h : Filed t s) (hstep : InboxSocket.step cfg t s op = some (t', s', frames)) :
    Filed t' s' := by
  obtain ⟨hevolves, hflight, hclaimed⟩ := step_spec hstep
  refine filed_grows ⟨?_, ?_⟩ hevolves.toTableGrows
  · intro e o hown
    rcases hflight with hsub | ⟨a, es, sent, hrun, hflight⟩
    · exact h.owners e o (hsub e o hown)
    · rw [hflight] at hown
      rcases owners_sendEntries _ a es sent e o hown with hown | ⟨en, hen, rfl, hchat⟩
      · exact h.owners e o hown
      · obtain ⟨r, hr, hid, hc⟩ := h.claimed a es hrun en hen
        exact ⟨r, hr, hid, hc.trans hchat⟩
  · intro a es hrun e he
    rcases hclaimed a es hrun with hrun | hrows
    · exact h.claimed a es hrun e he
    · exact hrows e he

/-- What every reachable server keeps: delivered rows are dated, each socket's flow is controlled, and what it filed are rows. -/
structure ServerOk (cfg : InboxDeliveryConfig) (s : InboxServer Key Socket) : Prop where
  dated : DeliveredDated s.table
  flow : ∀ k, FlowOk cfg (s.sockets k)
  filed : ∀ k, Filed s.table (s.sockets k)

/-- One step of a server evolves its table or inserts a row. -/
theorem server_grows {cfg : InboxDeliveryConfig} {s s' : InboxServer Key Socket} {op : ServerOp Key Socket}
    (hstep : InboxServer.step cfg s op = some s') :
    TableEvolves s.table s'.table ∨ ∃ id i m c notify, op = .insert id i m c notify ∧ ∃ hnew,
      s'.table = s.table.insert (InboxServer.newEntry id i m c notify) hnew := by
  cases op with
  | insert id inboxId messageId chatId notify =>
    simp only [InboxServer.step] at hstep
    split at hstep
    · rename_i hnew
      cases hstep
      exact Or.inr ⟨_, _, _, _, _, rfl, hnew, rfl⟩
    · exact absurd hstep (by simp)
  | poll inboxId limit locked now =>
    cases hstep
    exact Or.inl (tableEvolves_poll s.table inboxId limit none locked now)
  | socket k op =>
    obtain ⟨⟨t', s₁, frames⟩, hsock, rfl⟩ := Option.map_eq_some_iff.mp hstep
    exact Or.inl (step_spec hsock).1

/-- One step of a server keeps what every reachable server keeps. -/
theorem serverOk_step (cfg : InboxDeliveryConfig) :
    Runs.Preserves (Runs.ofPartial (InboxServer.step cfg)) fun s : InboxServer Key Socket => ServerOk cfg s := by
  rintro s op s' h hstep
  have hgrows : TableGrows s.table s'.table := by
    rcases server_grows hstep with hevolves | ⟨_, _, _, _, _, _, hnew, htable⟩
    · exact hevolves.toTableGrows
    · rw [htable]
      exact tableGrows_insert s.table hnew rfl
  have hkeep : ∀ k, s'.sockets k = s.sockets k → FlowOk cfg (s'.sockets k) ∧ Filed s'.table (s'.sockets k) := by
    intro k hk
    rw [hk]
    exact ⟨h.flow k, filed_grows (h.filed k) hgrows⟩
  have hsockets : ∀ k, FlowOk cfg (s'.sockets k) ∧ Filed s'.table (s'.sockets k) := by
    intro k
    cases op with
    | insert id inboxId messageId chatId notify =>
      simp only [Runs.ofPartial, InboxServer.step] at hstep
      split at hstep
      · cases hstep
        exact hkeep k rfl
      · exact absurd hstep (by simp)
    | poll inboxId limit locked now =>
      cases hstep
      exact hkeep k rfl
    | socket k₀ op =>
      obtain ⟨⟨t', s₁, frames⟩, hsock, rfl⟩ := Option.map_eq_some_iff.mp hstep
      by_cases hk : k = k₀
      · subst hk
        simp only [if_true]
        exact ⟨flowOk_step cfg _ (s.table, op) _ (h.flow k) (by simp [Runs.ofPartial, socketStep, hsock]),
          filed_step (h.filed k) hsock⟩
      · exact hkeep k (by simp [hk])
  exact ⟨hgrows.dated h.dated, fun k => (hsockets k).1, fun k => (hsockets k).2⟩

omit [DecidableEq Socket] in
/-- A new server keeps it. -/
theorem serverOk_init (cfg : InboxDeliveryConfig) : ServerOk cfg (InboxServer.init : InboxServer Key Socket) where
  dated := by simp [InboxServer.init, DeliveredDated, Table.empty]
  flow := fun _ => flowOk_init cfg
  filed := fun _ => ⟨by simp [InboxServer.init, InboxSocket.init, InboxInFlight.empty], by simp [InboxServer.init, InboxSocket.init]⟩

/-! ## Committed prefixes -/

/-- The step inserts a notify row of the entry's partition at or below the entry. -/
def InsertsBelow (c : Nat) (s : InboxServer Key Socket) (op : ServerOp Key Socket) : Prop :=
  ∃ id i m chatId, op = .insert id i m chatId true ∧ id ≤ c ∧ ∃ entry ∈ s.table.rows, entry.id = c ∧ entry.inboxId = i ∧
    entry.chatId = chatId

/-- A committed prefix stays committed while no notify row is inserted below its entry. -/
theorem prefixAcked_step {cfg : InboxDeliveryConfig} {c : Nat} {s s' : InboxServer Key Socket} {op : ServerOp Key Socket}
    (hin : c ∈ s.table.rows.map (·.id)) (h : PrefixAcked s.table c) (hnot : ¬ InsertsBelow c s op)
    (hstep : InboxServer.step cfg s op = some s') : c ∈ s'.table.rows.map (·.id) ∧ PrefixAcked s'.table c := by
  rcases server_grows hstep with hevolves | ⟨id, i, m, chatId, notify, rfl, hnew, htable⟩
  · refine ⟨hevolves.ids_eq ▸ hin, ?_⟩
    intro e' he' hid row' hrow' h₁ h₂ h₃ h₄
    obtain ⟨e, he, hee⟩ := hevolves.back he'
    obtain ⟨row, hrow, hrr⟩ := hevolves.back hrow'
    exact hrr.acked (h e he (hee.id_eq.symm.trans hid) row hrow (hrr.inboxId_eq.symm.trans (h₁.trans hee.inboxId_eq))
      (hrr.chatId_eq.symm.trans (h₂.trans hee.chatId_eq)) (hrr.notify_eq.symm.trans h₃) (hrr.id_eq ▸ h₄))
  · obtain ⟨entry, hentry, hid⟩ := List.mem_map.mp hin
    rw [htable]
    refine ⟨List.mem_map.mpr ⟨entry, Table.mem_insert.mpr (Or.inl hentry), hid⟩, ?_⟩
    intro e he heid row hrow h₁ h₂ h₃ h₄
    have hsame : e = entry :=
      Table.eq_of_key_eq he (Table.mem_insert.mpr (Or.inl hentry)) (heid.trans hid.symm)
    subst hsame
    rcases Table.mem_insert.mp hrow with hrow | rfl
    · exact h e hentry heid row hrow h₁ h₂ h₃ h₄
    · simp only [InboxServer.newEntry] at h₁ h₂ h₃ h₄
      exact absurd ⟨id, i, m, chatId, by rw [h₃], h₄, e, hentry, hid, h₁.symm, h₂.symm⟩ hnot

/-- The start of an ACK: what it answers and does is the ACK-through over the socket's snapshot. -/
theorem startAck_spec {cfg : InboxDeliveryConfig} {s s' : InboxServer Key Socket} {k : Socket} {c : Nat} {ref : Option Key}
    {routed : Key → Bool} {now : Nat}
    (hstep : InboxServer.step cfg s (.socket k (.startAck c ref routed false now)) = some s') :
    ∃ routedAgents inboxIds result,
      ackThroughEntryIdForBoundAgents s.table c inboxIds ((s.sockets k).inFlight.snapshotCurrentSocketDeliverySet c) now =
        (result, s'.table) ∧ (s'.sockets k).running = some (.acked c ref routedAgents result) := by
  obtain ⟨⟨t', s₁, frames⟩, hsock, rfl⟩ := Option.map_eq_some_iff.mp hstep
  simp only [InboxSocket.step] at hsock
  split at hsock
  · rename_i agents _
    split at hsock
    · rw [if_neg Bool.false_ne_true] at hsock
      cases hsock
      refine ⟨routedBoundAgents agents routed, (routedBoundAgents agents routed).map (·.2),
        (ackThroughEntryIdForBoundAgents s.table c ((routedBoundAgents agents routed).map (·.2))
          ((s.sockets k).inFlight.snapshotCurrentSocketDeliverySet c) now).1, rfl, ?_⟩
      show InboxSocket.running (if k = k then _ else _) = _
      rw [if_pos rfl]
    · exact absurd hsock (by simp)
  · exact absurd hsock (by simp)

omit [DecidableEq Socket] in
/-- A member of the snapshot is in the bucket of the entry's chat. -/
theorem snapshot_bucket {cfg : InboxDeliveryConfig} {s : InboxServer Key Socket} (h : ServerOk cfg s) {k : Socket}
    {entry : InboxEntry Key} (hentry : entry ∈ s.table.rows) {id : Nat}
    (hid : id ∈ (s.sockets k).inFlight.snapshotCurrentSocketDeliverySet entry.id) :
    ∃ a, id ∈ (s.sockets k).inFlight.bucketIds a entry.chatId := by
  unfold snapshotCurrentSocketDeliverySet at hid
  cases hown : (s.sockets k).inFlight.inboxInFlightOwnersByEntryId entry.id with
  | none => simp [hown] at hid
  | some owner =>
    obtain ⟨r, hr, hrid, hchat⟩ := (h.filed k).owners _ _ hown
    have hsame : r = entry := Table.eq_of_key_eq hr hentry hrid
    refine ⟨owner.agentId, ?_⟩
    rw [← hsame, hchat, bucketIds]
    simp only [hown] at hid
    cases hb : (s.sockets k).inFlight.bucket owner.agentId owner.chatKey with
    | none => simp [hb] at hid
    | some b => simpa [hb] using hid

end AckSafetyAux

open AckSafetyAux

/-- ACK-through keeps the queue safe, over every run of a server and every ACK of any socket. A notify row the ACK commits has an id
up to the cursor and its inbox and chat, was delivered before, and is in flight for that chat on the socket that sent the ACK; a
silent row it changes was pending behind the cursor in the same inbox and chat. A refused ACK changes no row. An ACK of a
committed prefix changes no row, and the prefix an accepted ACK leaves is committed until a notify row is inserted in it. -/
theorem ack_through_safe (cfg : InboxDeliveryConfig) {ops : List (ServerOp Key Socket)} {s s' : InboxServer Key Socket}
    (hrun : Runs.Run (Runs.ofPartial (InboxServer.step cfg)) InboxServer.init ops s) {k : Socket} {c : Nat} {ref : Option Key}
    {routed : Key → Bool} {now : Nat}
    (hstep : InboxServer.step cfg s (.socket k (.startAck c ref routed false now)) = some s') :
    (∀ row ∈ s.table.rows, ∀ row' ∈ s'.table.rows, row.id = row'.id → row.status ≠ .acked → row'.status = .acked →
      ∃ entry ∈ s.table.rows, entry.id = c ∧ row.id ≤ c ∧ row.inboxId = entry.inboxId ∧ row.chatId = entry.chatId ∧
        (row.notify = true → row.deliveredAt.isSome = true ∧ ∃ a, row.id ∈ (s.sockets k).inFlight.bucketIds a row.chatId) ∧
        (row.notify = false → row.status = .pending)) ∧
      (∀ routedAgents reason, (s'.sockets k).running = some (.acked c ref routedAgents (.rejected reason)) → s'.table = s.table) ∧
      (PrefixAcked s.table c → s'.table = s.table) ∧
      ∀ routedAgents throughEntry disposition ids,
        (s'.sockets k).running = some (.acked c ref routedAgents (.ok throughEntry disposition ids)) →
        ∀ later s₁, Runs.Run (Runs.Guarded (fun u op => ¬ InsertsBelow c u op) (Runs.ofPartial (InboxServer.step cfg))) s' later s₁ →
          ∀ k₂ ref₂ routed₂ now₂ s₂,
            InboxServer.step cfg s₁ (.socket k₂ (.startAck c ref₂ routed₂ false now₂)) = some s₂ → s₂.table = s₁.table := by
  have hok := hrun.invariant (serverOk_step cfg) (serverOk_init cfg)
  obtain ⟨routedAgents, inboxIds, result, hack, hrunning⟩ := startAck_spec hstep
  have hcases := AckAux.ackThrough_cases s.table c inboxIds ((s.sockets k).inFlight.snapshotCurrentSocketDeliverySet c) now
  have hrepeat : ∀ {u u' : InboxServer Key Socket} {k' : Socket} {ref' : Option Key} {routed' : Key → Bool} {now' : Nat},
      PrefixAcked u.table c → InboxServer.step cfg u (.socket k' (.startAck c ref' routed' false now')) = some u' →
        u'.table = u.table := by
    intro u u' k' ref' routed' now' hprefix hu
    obtain ⟨_, inboxIds', _, hack', _⟩ := startAck_spec hu
    have hsame := AckAux.ack_of_prefixAcked hprefix inboxIds' ((u.sockets k').inFlight.snapshotCurrentSocketDeliverySet c) now'
    rwa [hack'] at hsame
  refine ⟨?_, ?_, fun hprefix => hrepeat hprefix hstep, ?_⟩
  · intro row hrow row' hrow' hid hstatus hacked
    have hunchanged : s'.table ≠ s.table := by
      intro htable
      rw [htable] at hrow'
      have hsame : row = row' := Table.eq_of_key_eq hrow hrow' hid
      exact hstatus (hsame ▸ hacked)
    rcases hcases with ⟨reason, heq⟩ | ⟨entry, hentry, hentryId, _, _, _, hcase⟩
    · exact absurd (congrArg Prod.snd (hack.symm.trans heq)) hunchanged
    · rcases hcase with ⟨_, heq⟩ | ⟨_, hsnapshot, _, _, _, heq, _⟩
      · exact absurd (congrArg Prod.snd (hack.symm.trans heq)) hunchanged
      · have htable : s'.table = commitPrefix s.table entry (committableIds s.table entry) now :=
          congrArg Prod.snd (hack.symm.trans heq)
        rw [htable] at hrow'
        subst hentryId
        rcases AckAux.row_commitPrefix hrow hrow' hid with ⟨hcommit | hsilent, _⟩ | ⟨_, _, rfl⟩
        · have hids := AckAux.mem_committableIds.mpr ⟨row, hrow, rfl, hcommit⟩
          obtain ⟨hinbox, hchat, hnotify, hle, hdelivered⟩ := hcommit
          obtain ⟨a, hbucket⟩ := snapshot_bucket hok hentry (hsnapshot _ hids)
          refine ⟨entry, hentry, rfl, hle, hinbox, hchat, fun _ => ⟨?_, a, hchat ▸ hbucket⟩, ?_⟩
          · rcases hdelivered with hdelivered | ⟨_, hdated⟩
            · exact hok.dated row hrow hdelivered
            · exact hdated
          · intro hfalse
            exact absurd (hnotify.symm.trans hfalse) (by simp)
        · obtain ⟨hinbox, hchat, hnotify, hle, hpending⟩ := hsilent
          refine ⟨entry, hentry, rfl, hle, hinbox, hchat, fun htrue => ?_, fun _ => hpending⟩
          exact absurd (htrue.symm.trans hnotify) (by simp)
        · exact absurd hacked hstatus
  · intro routedAgents' reason hrejected
    have hresult : result = .rejected reason := by
      have hsame := hrunning.symm.trans hrejected
      simp only [Option.some.injEq, QueueOp.acked.injEq] at hsame
      exact hsame.2.2.2
    rcases hcases with ⟨reason', heq⟩ | ⟨entry, _, _, _, _, _, hcase⟩
    · exact congrArg Prod.snd (hack.symm.trans heq)
    · have hnot : result ≠ .rejected reason := by
        rcases hcase with ⟨_, heq⟩ | ⟨_, _, _, _, _, heq, _⟩ <;> rw [hack, Prod.mk.injEq] at heq <;> rw [heq.1] <;> simp
      exact absurd hresult hnot
  · intro routedAgents' throughEntry disposition ids haccepted later s₁ hlater k₂ ref₂ routed₂ now₂ s₂ hstep₂
    have hresult : result = .ok throughEntry disposition ids := by
      have hsame := hrunning.symm.trans haccepted
      simp only [Option.some.injEq, QueueOp.acked.injEq] at hsame
      exact hsame.2.2.2
    rw [hresult] at hack
    have hin : c ∈ s'.table.rows.map (·.id) := by
      rcases hcases with ⟨_, heq⟩ | ⟨entry, hentry, rfl, _⟩
      · exact absurd (congrArg Prod.fst (hack.symm.trans heq)) (by simp)
      · have hids := (AckAux.tableEvolves_ack s.table entry.id inboxIds
          ((s.sockets k).inFlight.snapshotCurrentSocketDeliverySet entry.id) now).ids_eq
        rw [hack] at hids
        rw [hids]
        exact List.mem_map_of_mem hentry
    have hkeeps : Runs.Preserves (Runs.Guarded (fun u op => ¬ InsertsBelow c u op) (Runs.ofPartial (InboxServer.step cfg)))
        fun u : InboxServer Key Socket => c ∈ u.table.rows.map (·.id) ∧ PrefixAcked u.table c := by
      rintro u op u' ⟨hu, hprefix⟩ ⟨hnot, hustep⟩
      exact prefixAcked_step hu hprefix hnot hustep
    exact hrepeat (hlater.invariant hkeeps ⟨hin, AckAux.prefixAcked_of_ok hack⟩).2 hstep₂

namespace AckSafetyExample

/-- The caps of the example. -/
def caps : InboxDeliveryConfig :=
  { inboxMaxInFlightPerAgent := 4, inboxMaxInFlightPerAgentChat := 2 }

/-- A silent row and a notify row of one chat, the notify row delivered on the socket, and an ACK of it that awaits its routes. -/
def silentBehindNotify : List (ServerOp Nat Unit) :=
  [.insert 1 10 21 (some 5) false, .insert 2 10 22 (some 5) true, .socket () (.bindLocalAgent 1 10),
    .socket () (.startDrain 1 10 (.notify 22)), .socket () (.routeDrain true), .socket () (.runDrain true false (fun _ => false) 0),
    .socket () (.finishDrain 1), .socket () (.routeAck 2 none)]

/-- The ACK of the notify row. -/
def ackNotify : ServerOp Nat Unit :=
  .socket () (.startAck 2 none (fun _ => true) false 1)

/-- The ACK commits the notify row, which was delivered and in flight, and drains the silent row. -/
theorem ack_through_safe_silent :
    ∃ s s', silentBehindNotify.foldlM (InboxServer.step caps) InboxServer.init = some s ∧
      InboxServer.step caps s ackNotify = some s' ∧ s'.table.rows.map (·.status) = [.acked, .acked] ∧
      ∀ row ∈ s.table.rows, ∀ row' ∈ s'.table.rows, row.id = row'.id → row.status ≠ .acked → row'.status = .acked →
        row.notify = true → row.deliveredAt.isSome = true ∧ ∃ a, row.id ∈ (s.sockets ()).inFlight.bucketIds a row.chatId := by
  have hboth : ((silentBehindNotify.foldlM (InboxServer.step caps) InboxServer.init).bind fun s =>
      (InboxServer.step caps s ackNotify).bind fun s' => some (s'.table.rows.map (·.status))) = some [.acked, .acked] := by decide
  simp only [Option.bind_eq_some_iff, Option.some.injEq] at hboth
  obtain ⟨s, hs, s', hs', hstatus⟩ := hboth
  refine ⟨s, s', hs, hs', hstatus, ?_⟩
  intro row hrow row' hrow' hid hold hnew hnotify
  obtain ⟨_, _, _, _, _, _, hflight, _⟩ :=
    (ack_through_safe caps (Runs.Run.of_foldlM hs) hs').1 row hrow row' hrow' hid hold hnew
  exact hflight hnotify

/-- The unrestricted statement: every row an ACK commits was delivered and in flight on the socket. -/
def EveryAckedRowWasInFlight : Prop :=
  ∀ ops s s' (k : Unit) c ref routed now,
    Runs.Run (Runs.ofPartial (InboxServer.step caps)) (InboxServer.init : InboxServer Nat Unit) ops s →
    InboxServer.step caps s (.socket k (.startAck c ref routed false now)) = some s' →
    ∀ row ∈ s.table.rows, ∀ row' ∈ s'.table.rows, row.id = row'.id → row.status ≠ .acked → row'.status = .acked →
      row.id ≤ c ∧ row.deliveredAt.isSome = true ∧ ∃ a, row.id ∈ (s.sockets k).inFlight.bucketIds a row.chatId

/-- A silent row is drained without a delivery, so the unrestricted statement is false. -/
theorem every_acked_row_was_in_flight_false : ¬ EveryAckedRowWasInFlight := by
  intro hall
  have hboth : ((silentBehindNotify.foldlM (InboxServer.step caps) InboxServer.init).bind fun s =>
      (InboxServer.step caps s ackNotify).bind fun s' =>
        some (s.table.rows.map fun r => (r.id, r.status, r.deliveredAt), s'.table.rows.map fun r => (r.id, r.status))) =
      some ([(1, .pending, none), (2, .delivered, some 0)], [(1, .acked), (2, .acked)]) := by decide
  simp only [Option.bind_eq_some_iff, Option.some.injEq, Prod.mk.injEq] at hboth
  obtain ⟨s, hs, s', hs', hbefore, hafter⟩ := hboth
  have hrow : (1, InboxEntryStatus.pending, none) ∈ s.table.rows.map fun r => (r.id, r.status, r.deliveredAt) := by
    rw [hbefore]
    exact List.mem_cons_self
  have hrow' : (1, InboxEntryStatus.acked) ∈ s'.table.rows.map fun r => (r.id, r.status) := by
    rw [hafter]
    exact List.mem_cons_self
  obtain ⟨row, hmem, hrow⟩ := List.mem_map.mp hrow
  obtain ⟨row', hmem', hrow'⟩ := List.mem_map.mp hrow'
  simp only [Prod.mk.injEq] at hrow hrow'
  obtain ⟨_, hdated, _⟩ := hall _ s s' () 2 none _ 1 (Runs.Run.of_foldlM hs) hs' row hmem row' hmem' (hrow.1.trans hrow'.1.symm)
    (by rw [hrow.2.1]; simp) hrow'.2
  rw [hrow.2.2] at hdated
  exact absurd hdated (by simp)

end AckSafetyExample

end FirstTree
