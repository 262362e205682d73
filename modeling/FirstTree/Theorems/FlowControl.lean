import FirstTree.Lib.Runs
import FirstTree.Lemmas.InFlight
import FirstTree.Lemmas.Inbox
import FirstTree.Server.InboxDelivery

/-!
# Flow control on one socket

Every run of one socket over a database that may hold any table at each step: the in-flight indexes agree, and the caps of an
agent and of a chat hold. A chat whose circuit is open is not claimed from by a fair drain before an ACK of it or a bind of its
agent, unless the agent is cleared while such a drain awaits its route: the drain goes on with budgets that know of no circuit.
-/

namespace FirstTree

open Inbox InboxInFlight InboxSocket

variable {Key : Type} [DecidableEq Key]

/-- One step of a socket, over whatever the table holds at that moment. -/
def socketStep (cfg : InboxDeliveryConfig) (s : InboxSocket Key) (label : InboxTable Key × SocketOp Key) :
    Option (InboxSocket Key) :=
  (InboxSocket.step cfg label.1 s label.2).map fun r => r.2.1

/-- The chat's no-progress circuit is open. -/
def InboxSocket.circuitOpen (s : InboxSocket Key) (agentId chatId : Key) : Prop :=
  ∃ progress, s.inboxRecoverProgress.lookup (agentId, chatId) = some progress ∧ progress.open = true

/-- What flow control keeps of a socket: the indexes agree, the caps hold, and they still hold once the rows of a claim that is
awaited are filed; a recovery that is awaited is one of a chat whose circuit is not open. -/
structure FlowOk (cfg : InboxDeliveryConfig) (s : InboxSocket Key) : Prop where
  agree : InFlightAgree s.inFlight
  agentCap : ∀ a, s.inFlight.inboxInFlightCount a ≤ cfg.inboxMaxInFlightPerAgent
  chatCap : ∀ a c, s.inFlight.inboxInFlightCountForChat a c ≤ cfg.inboxMaxInFlightPerAgentChat
  claimed_agent : ∀ a es, s.running = some (.claimed a es) →
    s.inFlight.inboxInFlightCount a + es.length ≤ cfg.inboxMaxInFlightPerAgent
  claimed_chat : ∀ a es c, s.running = some (.claimed a es) →
    s.inFlight.inboxInFlightCountForChat a c + (es.filter fun e => decide (e.chatId = c)).length ≤
      cfg.inboxMaxInFlightPerAgentChat
  recovering : ∀ a i c ref prior ids, s.running = some (.recovered a i c ref prior ids) → ¬ s.circuitOpen a c

/-- The step clears the chat's circuit: a bind of the agent, or the answer of an ACK that committed rows of the agent's chat. -/
def ClearsCircuit (agentId chatId : Key) (s : InboxSocket Key) (label : InboxTable Key × SocketOp Key) : Prop :=
  (∃ inboxId, label.2 = .bindLocalAgent agentId inboxId) ∨
    (label.2 = .finishAck ∧ ∃ entryId ref routed throughEntry disposition ackedEntryIds owner,
      s.running = some (.acked entryId ref routed (.ok throughEntry disposition ackedEntryIds)) ∧ ackedEntryIds ≠ [] ∧
        throughEntry.chatId = some chatId ∧ (routed.find? fun a => decide (a.2 = throughEntry.inboxId)) = some owner ∧
        owner.1 = agentId)

/-- The step clears the chat's agent, with its open circuit, while a fair drain of the agent awaits its route: a drop of the
binding, or the close of the connection. -/
def ClearsAwaited (agentId chatId : Key) (s : InboxSocket Key) (label : InboxTable Key × SocketOp Key) : Prop :=
  s.circuitOpen agentId chatId ∧ (label.2 = .dropLocalAgentBinding agentId ∨ label.2 = .close) ∧
    ∃ inboxId trigger, s.running = some (.routing agentId inboxId trigger) ∧ ∀ c, trigger ≠ .recover c

/-- While no ACK of the chat and no bind of its agent clears its circuit, no fair drain of the agent claims a row of the chat, as
far as the steps keep to a condition. -/
def ClosedToFairDrains (cfg : InboxDeliveryConfig) (keeps : InboxSocket Key → InboxTable Key × SocketOp Key → Prop)
    (s : InboxSocket Key) (agentId chatId : Key) : Prop :=
  ∀ later s₁, Runs.Run (Runs.Guarded (fun s label => ¬ ClearsCircuit agentId chatId s label ∧ keeps s label)
      (Runs.ofPartial (socketStep cfg))) s later s₁ →
    ∀ t inboxId trigger routed failed locked now entries s₂, s₁.running = some (.routing agentId inboxId trigger) →
      (∀ c, trigger ≠ .recover c) → socketStep cfg s₁ (t, .runDrain routed failed locked now) = some s₂ →
        s₂.running = some (.claimed agentId entries) → ∀ e ∈ entries, e.chatId ≠ some chatId

namespace FlowAux

open InFlightAux InboxAux

/-- A step of the socket is a step over the table and with the frames it leaves out. -/
theorem socketStep_some {cfg : InboxDeliveryConfig} {s s' : InboxSocket Key} {t : InboxTable Key} {op : SocketOp Key}
    (h : socketStep cfg s (t, op) = some s') : ∃ t' frames, InboxSocket.step cfg t s op = some (t', s', frames) := by
  obtain ⟨⟨t', s'', frames⟩, hstep, rfl⟩ := Option.map_eq_some_iff.mp h
  exact ⟨t', frames, hstep⟩

/-! ## Budgets -/

/-- The bucket of a chat gives the chat what remains of its window; a chat without a bucket has no budget of its own. -/
theorem lookup_bucketBudgets {f : InboxInFlight Key} (h : InFlightAgree f) (a : Key) (cap : Nat) (c : Option Key) :
    (f.bucketBudgets a cap).lookup c = (f.bucket a c).map fun b => cap - b.entryIds.card := by
  unfold bucketBudgets bucket
  cases hm : f.inboxInFlightByAgent.lookup a with
  | none => rfl
  | some m =>
    have hentry : ∀ e ∈ m.entries, inboxChatKey e.2.chatId = e.1 ∧ m.lookup e.1 = some e.2 := by
      intro e he
      have hlookup : m.lookup e.1 = some e.2 := AList.mem_lookup_iff.mpr he
      exact ⟨(h.bucket_ok a e.1 e.2 (by simp [bucket, hm, hlookup])).2, hlookup⟩
    simp only [Option.bind_some]
    cases hb : m.lookup c with
    | none =>
      rcases AssocList.lookup_insertAll_cases (fun _ => true) (fun e => inboxChatKey e.2.chatId)
        (fun e => cap - e.2.entryIds.card) c ∅ m.entries with hnone | ⟨e, he, _, hkey, _⟩
      · rw [hnone]
        rfl
      · obtain ⟨hchat, hlookup⟩ := hentry e he
        rw [← hchat, hkey, hb] at hlookup
        exact absurd hlookup (by simp)
    | some b =>
      have hmem : ⟨c, b⟩ ∈ m.entries := AList.mem_lookup_iff.mp hb
      have hval : ∀ e ∈ m.entries, true = true → inboxChatKey e.2.chatId = c → cap - e.2.entryIds.card = cap - b.entryIds.card := by
        intro e he _ hkey
        obtain ⟨hchat, hlookup⟩ := hentry e he
        rw [← hchat, hkey, hb] at hlookup
        rw [Option.some.inj hlookup]
      exact AssocList.lookup_insertAll_of_mem _ _ _ ∅ hmem rfl (hentry _ hmem).1 hval

/-- The budget of a chat leaves no more than what its window has left. -/
theorem remaining_le {f : InboxInFlight Key} (h : InFlightAgree f) (progress : InboxRecoverProgressMap Key) (a : Key) (cap : Nat)
    (c : Option Key) :
    remainingFor (f.inboxInFlightChatBudgets progress a cap) cap c ≤ cap - f.inboxInFlightCountForChat a c := by
  unfold remainingFor inboxInFlightChatBudgets
  rcases AssocList.lookup_insertAll_cases (fun e : Sigma fun _ : Key × Key => InboxRecoverProgress => e.2.open && decide (e.1.1 = a))
    (fun e => inboxChatKey (some e.1.2)) (fun _ => 0) c (f.bucketBudgets a cap) progress.entries with hsame | ⟨_, _, _, _, hzero⟩
  · rw [hsame, lookup_bucketBudgets h]
    unfold inboxInFlightCountForChat inboxChatKey
    cases f.bucket a c <;> simp
  · rw [hzero]
    simp

/-- A chat whose circuit is open has no budget. -/
theorem remaining_of_open {s : InboxSocket Key} {a c : Key} (hopen : s.circuitOpen a c) (cap : Nat) :
    remainingFor (s.inFlight.inboxInFlightChatBudgets s.inboxRecoverProgress a cap) cap (some c) = 0 := by
  obtain ⟨progress, hlookup, hp⟩ := hopen
  have hmem : ⟨(a, c), progress⟩ ∈ s.inboxRecoverProgress.entries := AList.mem_lookup_iff.mp hlookup
  have hzero : (s.inFlight.inboxInFlightChatBudgets s.inboxRecoverProgress a cap).lookup (some c) = some 0 :=
    AssocList.lookup_insertAll_of_mem
      (fun e : Sigma fun _ : Key × Key => InboxRecoverProgress => e.2.open && decide (e.1.1 = a))
      (fun e => inboxChatKey (some e.1.2)) (fun _ => 0) (s.inFlight.bucketBudgets a cap) hmem (by simp [hp]) rfl
      (fun _ _ _ _ => rfl)
  rw [remainingFor, hzero]
  rfl

/-! ## The claim of a drain -/

/-- A fair claim fits both caps. -/
theorem fairClaim_bounds {cfg : InboxDeliveryConfig} {s : InboxSocket Key} (h : FlowOk cfg s) {t : InboxTable Key}
    {agentId inboxId : Key} {locked : Nat → Bool} {now : Nat} {limit : Nat}
    (hlimit : limit ≤ cfg.inboxMaxInFlightPerAgent - s.inFlight.inboxInFlightCount agentId) {entries : List (InboxEntry Key)}
    (hentries : entries = (claimBacklogForPushFair t inboxId limit cfg.inboxMaxInFlightPerAgentChat
      (s.inFlight.inboxInFlightChatBudgets s.inboxRecoverProgress agentId cfg.inboxMaxInFlightPerAgentChat) locked now).1) :
    s.inFlight.inboxInFlightCount agentId + entries.length ≤ cfg.inboxMaxInFlightPerAgent ∧
      ∀ c, s.inFlight.inboxInFlightCountForChat agentId c + (entries.filter fun e => decide (e.chatId = c)).length ≤
        cfg.inboxMaxInFlightPerAgentChat := by
  subst hentries
  obtain ⟨hlength, hchat⟩ := fair_bounds t inboxId limit cfg.inboxMaxInFlightPerAgentChat
    (s.inFlight.inboxInFlightChatBudgets s.inboxRecoverProgress agentId cfg.inboxMaxInFlightPerAgentChat) locked now
  have hagent := h.agentCap agentId
  refine ⟨by omega, fun c => ?_⟩
  have hremaining := remaining_le h.agree s.inboxRecoverProgress agentId cfg.inboxMaxInFlightPerAgentChat c
  have hcap := h.chatCap agentId c
  have hc := hchat c
  omega

/-- What a drain with a free slot claims fits both caps. -/
theorem drainClaim_bounds {cfg : InboxDeliveryConfig} {t : InboxTable Key} {s : InboxSocket Key} (h : FlowOk cfg s)
    {agentId inboxId : Key} {trigger : DrainTrigger Key} {locked : Nat → Bool} {now : Nat} {entries : List (InboxEntry Key)}
    (hentries : entries = (s.drainClaim cfg t agentId inboxId trigger locked now).1) :
    s.inFlight.inboxInFlightCount agentId + entries.length ≤ cfg.inboxMaxInFlightPerAgent ∧
      ∀ c, s.inFlight.inboxInFlightCountForChat agentId c + (entries.filter fun e => decide (e.chatId = c)).length ≤
        cfg.inboxMaxInFlightPerAgentChat := by
  have hagent := h.agentCap agentId
  cases trigger with
  | recover chatId =>
    obtain ⟨hlength, hchat⟩ := forChat_bounds t inboxId chatId (s.drainLimit cfg agentId (.recover chatId)) locked now
    have hclaim : (claimBacklogForPushForChat t inboxId chatId (s.drainLimit cfg agentId (.recover chatId)) locked now).1 = entries :=
      hentries.symm
    rw [hclaim] at hlength hchat
    have hlimit : s.drainLimit cfg agentId (.recover chatId) ≤ cfg.inboxMaxInFlightPerAgent - s.inFlight.inboxInFlightCount agentId ∧
        s.drainLimit cfg agentId (.recover chatId) ≤
          cfg.inboxMaxInFlightPerAgentChat - s.inFlight.inboxInFlightCountForChat agentId (some chatId) := by
      simp only [drainLimit]
      omega
    refine ⟨by omega, fun c => ?_⟩
    have hcap := h.chatCap agentId c
    by_cases hc : c = some chatId
    · subst hc
      have hfilter := List.length_filter_le (fun e : InboxEntry Key => decide (e.chatId = some chatId)) entries
      omega
    · have hnone : entries.filter (fun e => decide (e.chatId = c)) = [] := by
        rw [List.filter_eq_nil_iff]
        intro e he hec
        exact hc ((of_decide_eq_true hec).symm.trans (hchat e he))
      rw [hnone]
      exact hcap
  | notify m => exact fairClaim_bounds h (by simp only [drainLimit]; omega) hentries
  | bind => exact fairClaim_bounds h (by simp only [drainLimit]; omega) hentries
  | ack => exact fairClaim_bounds h (by simp only [drainLimit]; omega) hentries
  | repair => exact fairClaim_bounds h (by simp only [drainLimit]; omega) hentries

/-- What a drain claims is its claim. -/
theorem drainClaim_of_some {cfg : InboxDeliveryConfig} {t t' : InboxTable Key} {s : InboxSocket Key} {agentId inboxId : Key}
    {trigger : DrainTrigger Key} {routed failed : Bool} {locked : Nat → Bool} {now : Nat} {entries : List (InboxEntry Key)}
    (hd : s.drainBacklogForAgent cfg t agentId inboxId trigger routed failed locked now = some (entries, t')) :
    s.drainClaim cfg t agentId inboxId trigger locked now = (entries, t') := by
  unfold drainBacklogForAgent at hd
  split at hd
  · exact absurd hd (by simp)
  · split at hd
    · exact absurd hd (by simp)
    · split at hd
      · exact absurd hd (by simp)
      · exact Option.some.inj hd

/-- What a drain claims fits both caps. -/
theorem drain_bounds {cfg : InboxDeliveryConfig} {t t' : InboxTable Key} {s : InboxSocket Key} (h : FlowOk cfg s)
    {agentId inboxId : Key} {trigger : DrainTrigger Key} {routed failed : Bool} {locked : Nat → Bool} {now : Nat}
    {entries : List (InboxEntry Key)}
    (hd : s.drainBacklogForAgent cfg t agentId inboxId trigger routed failed locked now = some (entries, t')) :
    s.inFlight.inboxInFlightCount agentId + entries.length ≤ cfg.inboxMaxInFlightPerAgent ∧
      ∀ c, s.inFlight.inboxInFlightCountForChat agentId c + (entries.filter fun e => decide (e.chatId = c)).length ≤
        cfg.inboxMaxInFlightPerAgentChat := by
  exact drainClaim_bounds h (by rw [drainClaim_of_some hd])

/-! ## The send loop -/

/-- Filing an entry lets the count of its chat grow by one at most, and no other. -/
theorem countForChat_add_le {f : InboxInFlight Key} (h : InFlightAgree f) (a a' : Key) (c c' : Option Key) (e : Nat) :
    (f.addInboxInFlight a c e).inboxInFlightCountForChat a' c' ≤
      f.inboxInFlightCountForChat a' c' + if a' = a ∧ c = c' then 1 else 0 := by
  rw [countForChat_eq, countForChat_eq, bucketIds_add h]
  by_cases heq : a' = a ∧ c' = c
  · rw [if_pos heq, if_pos ⟨heq.1, heq.2.symm⟩]
    exact Finset.card_insert_le _ _
  · rw [if_neg heq, if_neg (fun hcon => heq ⟨hcon.1, hcon.2.symm⟩)]
    exact Finset.card_erase_le

/-- Removing entries lets the count of no chat grow. -/
theorem countForChat_remove_le {f : InboxInFlight Key} (h : InFlightAgree f) (es : List Nat) (a : Key) (c : Option Key) :
    (f.removeInboxInFlight es).inboxInFlightCountForChat a c ≤ f.inboxInFlightCountForChat a c := by
  rw [countForChat_eq, countForChat_eq, (agree_remove h es).2]
  exact Finset.card_le_card Finset.sdiff_subset

/-- The send loop keeps the indexes in agreement, and lets the counts of the agent and of its chats grow by no more than the entries
it was given. -/
theorem sendEntries_bounds {f : InboxInFlight Key} (h : InFlightAgree f) (a : Key) (entries : List (InboxEntry Key)) (sent : Nat) :
    InFlightAgree (sendEntries f a entries sent).1 ∧
      (∀ a', (sendEntries f a entries sent).1.inboxInFlightCount a' ≤
        f.inboxInFlightCount a' + if a' = a then entries.length else 0) ∧
      ∀ a' c, (sendEntries f a entries sent).1.inboxInFlightCountForChat a' c ≤
        f.inboxInFlightCountForChat a' c + if a' = a then (entries.filter fun e => decide (e.chatId = c)).length else 0 := by
  induction entries generalizing f sent with
  | nil => exact ⟨h, fun a' => by simp [sendEntries], fun a' c => by simp [sendEntries]⟩
  | cons entry rest ih =>
    have hadd := agree_add h a entry.chatId entry.id
    have hcount := fun a' => count_add_le h a a' entry.chatId entry.id
    have hchat := fun a' c => countForChat_add_le h a a' entry.chatId c entry.id
    cases sent with
    | zero =>
      refine ⟨(agree_remove hadd _).1, fun a' => ?_, fun a' c => ?_⟩
      · have hle := count_remove_le hadd [entry.id] a'
        have hgrow := hcount a'
        simp only [sendEntries, List.length_cons]
        split at hgrow <;> simp_all <;> omega
      · have hle := countForChat_remove_le hadd [entry.id] a' c
        have hgrow := hchat a' c
        simp only [sendEntries, List.filter_cons]
        by_cases ha : a' = a <;> by_cases hc : entry.chatId = c <;> simp_all <;> omega
    | succ sent =>
      obtain ⟨hagree, hagent, hchats⟩ := ih hadd sent
      refine ⟨hagree, fun a' => ?_, fun a' c => ?_⟩
      · have hle := hagent a'
        have hgrow := hcount a'
        simp only [sendEntries, List.length_cons]
        by_cases ha : a' = a <;> simp_all <;> omega
      · have hle := hchats a' c
        have hgrow := hchat a' c
        simp only [sendEntries, List.filter_cons]
        by_cases ha : a' = a <;> by_cases hc : entry.chatId = c <;> simp_all <;> omega

/-! ## One step -/

/-- A socket whose counts do not grow stays under its caps, when no claim is awaited that was not before. -/
theorem flowOk_of_le {cfg : InboxDeliveryConfig} {s s' : InboxSocket Key} (h : FlowOk cfg s) (hagree : InFlightAgree s'.inFlight)
    (hcount : ∀ a, s'.inFlight.inboxInFlightCount a ≤ s.inFlight.inboxInFlightCount a)
    (hchat : ∀ a c, s'.inFlight.inboxInFlightCountForChat a c ≤ s.inFlight.inboxInFlightCountForChat a c)
    (hclaimed : ∀ a es, s'.running = some (.claimed a es) → s.running = some (.claimed a es))
    (hrecovering : ∀ a i c ref prior ids, s'.running = some (.recovered a i c ref prior ids) → ¬ s'.circuitOpen a c) :
    FlowOk cfg s' where
  agree := hagree
  agentCap := fun a => (hcount a).trans (h.agentCap a)
  chatCap := fun a c => (hchat a c).trans (h.chatCap a c)
  claimed_agent := fun a es hrun => (Nat.add_le_add_right (hcount a) _).trans (h.claimed_agent a es (hclaimed a es hrun))
  claimed_chat := fun a es c hrun => (Nat.add_le_add_right (hchat a c) _).trans (h.claimed_chat a es c (hclaimed a es hrun))
  recovering := hrecovering

/-- Only an erasure may happen to the circuits of a socket that keeps the operation it runs. -/
theorem recovering_of_subset {cfg : InboxDeliveryConfig} {s s' : InboxSocket Key} (h : FlowOk cfg s)
    (hrun : s'.running = s.running)
    (hprogress : ∀ key p, s'.inboxRecoverProgress.lookup key = some p → s.inboxRecoverProgress.lookup key = some p) :
    ∀ a i c ref prior ids, s'.running = some (.recovered a i c ref prior ids) → ¬ s'.circuitOpen a c := by
  rintro a i c ref prior ids hrec ⟨p, hp, hopen⟩
  exact h.recovering a i c ref prior ids (hrun ▸ hrec) ⟨p, hprogress _ p hp, hopen⟩

/-- Erasing keys leaves the other entries and adds none. -/
theorem lookup_foldl_erase {α β : Type} [DecidableEq α] (keys : List α) (m : AList fun _ : α => β) (key : α) :
    (keys.foldl (fun m k => m.erase k) m).lookup key = if key ∈ keys then none else m.lookup key := by
  induction keys generalizing m with
  | nil => simp
  | cons k keys ih =>
    rw [List.foldl_cons, ih]
    by_cases hmem : key ∈ keys
    · simp [hmem]
    · by_cases hk : key = k
      · subst hk
        simp
      · simp [hmem, hk]

/-- Forgetting the progress of an agent forgets that of its chats and of no other agent. -/
theorem lookup_clearInboxRecoverProgress (m : InboxRecoverProgressMap Key) (a : Key) (key : Key × Key) :
    (clearInboxRecoverProgress m a).lookup key = if key.1 = a then none else m.lookup key := by
  unfold clearInboxRecoverProgress
  rw [lookup_foldl_erase]
  by_cases ha : key.1 = a
  · simp only [List.mem_filter, ha, decide_true, and_true, if_true]
    by_cases hmem : key ∈ m.keys
    · simp [hmem]
    · rw [if_neg hmem]
      exact AList.lookup_eq_none.mpr hmem
  · simp [ha]

/-- Clearing an agent lets the count of no chat grow. -/
theorem countForChat_clear_le (f : InboxInFlight Key) (a a' : Key) (c : Option Key) :
    (f.clearInboxInFlightForAgent a).inboxInFlightCountForChat a' c ≤ f.inboxInFlightCountForChat a' c := by
  rw [countForChat_eq, countForChat_eq, bucketIds_clear]
  split <;> simp

/-- A socket that changes none of what flow control reads stays under its caps. -/
theorem flowOk_of_same {cfg : InboxDeliveryConfig} {s s' : InboxSocket Key} (h : FlowOk cfg s) (hflight : s'.inFlight = s.inFlight)
    (hclaimed : ∀ a es, s'.running = some (.claimed a es) → s.running = some (.claimed a es))
    (hrecovering : ∀ a i c ref prior ids, s'.running = some (.recovered a i c ref prior ids) → ¬ s'.circuitOpen a c) :
    FlowOk cfg s' :=
  flowOk_of_le h (hflight ▸ h.agree) (fun _ => by rw [hflight]) (fun _ _ => by rw [hflight]) hclaimed hrecovering

/-- A bind, an unbind and a drop keep the caps. -/
theorem flowOk_binding {cfg : InboxDeliveryConfig} {s : InboxSocket Key} (h : FlowOk cfg s) (a i : Key) :
    FlowOk cfg (s.bindLocalAgent a i) ∧ FlowOk cfg (s.unbind a) ∧ FlowOk cfg (s.dropLocalAgentBinding a) := by
  have hforget : ∀ key p, (clearInboxRecoverProgress s.inboxRecoverProgress a).lookup key = some p →
      s.inboxRecoverProgress.lookup key = some p := by
    intro key p hp
    rw [lookup_clearInboxRecoverProgress] at hp
    split at hp
    · exact absurd hp (by simp)
    · exact hp
  refine ⟨?_, ?_, ?_⟩
  · exact flowOk_of_same h rfl (fun _ _ => id) (recovering_of_subset h rfl hforget)
  · exact flowOk_of_le h (agree_clear h.agree a) (count_clear_le _ a) (countForChat_clear_le _ a) (fun _ _ => id)
      (recovering_of_subset h rfl fun _ _ => id)
  · exact flowOk_of_le h (agree_clear h.agree a) (count_clear_le _ a) (countForChat_clear_le _ a) (fun _ _ => id)
      (recovering_of_subset h rfl hforget)

/-- The answer of an ACK keeps the caps. -/
theorem flowOk_finishAck {cfg : InboxDeliveryConfig} {s : InboxSocket Key} (h : FlowOk cfg s) (entryId : Nat) (ref : Option Key)
    (routed : List (Key × Key)) (result : AckEntryResult Key) : FlowOk cfg (s.finishAck entryId ref routed result).1 := by
  have hidle : FlowOk cfg { s with running := none } := flowOk_of_same h rfl (by simp) (by simp)
  cases result with
  | rejected reason => exact hidle
  | ok throughEntry disposition ackedEntryIds =>
    unfold finishAck
    simp only
    split
    · exact hidle
    · split
      · exact hidle
      · exact flowOk_of_le h (agree_remove h.agree _).1 (count_remove_le h.agree _) (countForChat_remove_le h.agree _)
          (by simp) (by simp)

/-- What the end of a recovery does: it removes the reset rows, changes the progress of its chat only, and leaves the queue idle or
about to count. -/
theorem finishRecover_spec (s : InboxSocket Key) (a i c ref : Key) (prior : Option InboxRecoverProgress) (ids : List Nat) :
    let s' := (s.finishRecover a i c ref prior ids).1
    s'.inFlight = s.inFlight.removeInboxInFlight ids ∧ s'.boundAgents = s.boundAgents ∧
      (s'.running = none ∨ s'.running = some (.counting a i c ref ids.length)) ∧
      ∀ key, key ≠ (a, c) → s'.inboxRecoverProgress.lookup key = s.inboxRecoverProgress.lookup key := by
  by_cases hids : ids = []
  · simp only [finishRecover, if_pos hids]
    exact ⟨trivial, trivial, Or.inr trivial, fun key hkey => AList.lookup_erase_ne hkey⟩
  · by_cases hlimit : recoverNoProgressLimit < consecutiveResetsOf prior (ids.insertionSort (· ≤ ·))
    · simp only [finishRecover, if_neg hids, if_pos hlimit]
      exact ⟨trivial, trivial, Or.inl trivial, fun key hkey => AList.lookup_insert_ne hkey⟩
    · simp only [finishRecover, if_neg hids, if_neg hlimit]
      exact ⟨trivial, trivial, Or.inr trivial, fun key hkey => AList.lookup_insert_ne hkey⟩

/-- The end of a recovery keeps the caps. -/
theorem flowOk_finishRecover {cfg : InboxDeliveryConfig} {s : InboxSocket Key} (h : FlowOk cfg s) (a i c ref : Key)
    (prior : Option InboxRecoverProgress) (ids : List Nat) : FlowOk cfg (s.finishRecover a i c ref prior ids).1 := by
  obtain ⟨hflight, _, hrun, _⟩ := finishRecover_spec s a i c ref prior ids
  refine flowOk_of_le h ?_ ?_ ?_ ?_ ?_
  · rw [hflight]
    exact (agree_remove h.agree _).1
  · intro a'
    rw [hflight]
    exact count_remove_le h.agree _ a'
  · intro a' c'
    rw [hflight]
    exact countForChat_remove_le h.agree _ a' c'
  · intro a' es hes
    rcases hrun with hrun | hrun <;> rw [hrun] at hes <;> exact absurd hes (by simp)
  · intro a' i' c' ref' prior' ids' hrec
    rcases hrun with hrun | hrun <;> rw [hrun] at hrec <;> exact absurd hrec (by simp)

/-- The start of a recovery awaits the route, or answers at once. -/
theorem routeRecover_spec (s : InboxSocket Key) (a c ref : Key) :
    (s.routeRecover a c ref).1 = s ∨ ∃ i, (s.routeRecover a c ref).1 = { s with running := some (.routingRecover a i c ref) } := by
  unfold routeRecover
  split
  · exact Or.inl rfl
  · exact Or.inr ⟨_, rfl⟩

/-- What a recovery does once the route is known: it is refused, or awaits the reset of a chat whose circuit is not open. -/
theorem startRecover_spec (t : InboxTable Key) (s : InboxSocket Key) (a i c ref : Key) (routed failed : Bool) :
    (s.startRecover t a i c ref routed failed).1 = t ∧ (s.startRecover t a i c ref routed failed).2.1 = { s with running := none } ∨
      ¬ s.circuitOpen a c ∧ (s.startRecover t a i c ref routed failed).1 = (recoverUnackedForScope t i (some c)).2 ∧
        (s.startRecover t a i c ref routed failed).2.1 = { s with running := some (.recovered a i c ref
          (s.inboxRecoverProgress.lookup (a, c)) (recoverUnackedForScope t i (some c)).1) } := by
  unfold startRecover
  simp only
  split
  · exact Or.inl ⟨rfl, rfl⟩
  · split
    · exact Or.inl ⟨rfl, rfl⟩
    · rename_i hclosed
      split
      · exact Or.inl ⟨rfl, rfl⟩
      · refine Or.inr ⟨?_, rfl, rfl⟩
        rintro ⟨p, hp, hopen⟩
        rw [hp] at hclosed
        exact hclosed (by simpa using hopen)

/-- A recovery whose route is known keeps the caps, and awaits a reset only for a chat whose circuit is not open. -/
theorem flowOk_startRecover {cfg : InboxDeliveryConfig} {s : InboxSocket Key} (h : FlowOk cfg s)
    (t : InboxTable Key) (a i c ref : Key) (routed failed : Bool) : FlowOk cfg (s.startRecover t a i c ref routed failed).2.1 := by
  rcases startRecover_spec t s a i c ref routed failed with ⟨_, hs'⟩ | ⟨hclosed, _, hs'⟩
  · rw [hs']
    exact flowOk_of_same h rfl (by simp) (by simp)
  · rw [hs']
    refine flowOk_of_same h rfl (by simp) ?_
    intro a' i' c' ref' prior ids hrec
    simp only [Option.some.injEq, QueueOp.recovered.injEq] at hrec
    obtain ⟨rfl, _, rfl, _⟩ := hrec
    exact hclosed

/-- The end of a drain keeps the caps: the awaited claim was counted. -/
theorem flowOk_finishDrain {cfg : InboxDeliveryConfig} {s : InboxSocket Key} (h : FlowOk cfg s) {a : Key}
    {entries : List (InboxEntry Key)} (hrun : s.running = some (.claimed a entries)) (sent : Nat) :
    FlowOk cfg { s with inFlight := (sendEntries s.inFlight a entries sent).1, running := none } := by
  obtain ⟨hagree, hagent, hchat⟩ := sendEntries_bounds h.agree a entries sent
  refine ⟨hagree, fun a' => ?_, fun a' c => ?_, by simp, by simp, by simp⟩
  · have hle := hagent a'
    by_cases ha : a' = a
    · subst ha
      rw [if_pos rfl] at hle
      exact hle.trans (h.claimed_agent a' entries hrun)
    · rw [if_neg ha] at hle
      exact hle.trans (h.agentCap a')
  · have hle := hchat a' c
    by_cases ha : a' = a
    · subst ha
      rw [if_pos rfl] at hle
      exact hle.trans (h.claimed_chat a' entries c hrun)
    · rw [if_neg ha] at hle
      exact hle.trans (h.chatCap a' c)

/-- A drain that claims keeps the caps: what it claimed fits them. -/
theorem flowOk_runDrain {cfg : InboxDeliveryConfig} {t t' : InboxTable Key} {s : InboxSocket Key} (h : FlowOk cfg s)
    {a i : Key} {trigger : DrainTrigger Key} {routed failed : Bool} {locked : Nat → Bool} {now : Nat}
    {entries : List (InboxEntry Key)}
    (hd : s.drainBacklogForAgent cfg t a i trigger routed failed locked now = some (entries, t')) :
    FlowOk cfg { s with running := some (.claimed a entries) } := by
  obtain ⟨hagent, hchat⟩ := drain_bounds h hd
  refine ⟨h.agree, h.agentCap, h.chatCap, ?_, ?_, by simp⟩
  · intro a' es hes
    simp only [Option.some.injEq, QueueOp.claimed.injEq] at hes
    obtain ⟨rfl, rfl⟩ := hes
    exact hagent
  · intro a' es c hes
    simp only [Option.some.injEq, QueueOp.claimed.injEq] at hes
    obtain ⟨rfl, rfl⟩ := hes
    exact hchat c

/-- One step of a socket keeps the caps. -/
theorem flowOk_step (cfg : InboxDeliveryConfig) :
    Runs.Preserves (Runs.ofPartial (socketStep cfg)) fun s : InboxSocket Key => FlowOk cfg s := by
  rintro s ⟨t, op⟩ s' h hstep
  obtain ⟨t', frames, hstep⟩ := socketStep_some hstep
  cases op with
  | bindLocalAgent a i =>
    cases hstep
    exact (flowOk_binding h a i).1
  | resetOnBind a failed =>
    simp only [step, Option.map_eq_some_iff] at hstep
    obtain ⟨i, _, hstep⟩ := hstep
    cases hstep
    exact h
  | unbind a =>
    cases hstep
    exact (flowOk_binding h a a).2.1
  | dropLocalAgentBinding a =>
    cases hstep
    exact (flowOk_binding h a a).2.2
  | leaveOpen =>
    cases hstep
    exact flowOk_of_same h rfl (fun _ _ => id) h.recovering
  | close =>
    cases hstep
    refine flowOk_of_le h agree_empty ?_ ?_ (fun _ _ => id) (recovering_of_subset h rfl ?_)
    · intro a
      simp [close, inboxInFlightCount, InboxInFlight.empty]
    · intro a c
      simp [close, inboxInFlightCountForChat, bucket, InboxInFlight.empty]
    · intro key p hp
      exact absurd hp (by simp [close])
  | startDrain a i trigger =>
    simp only [step] at hstep
    split at hstep
    · cases hstep
      exact flowOk_of_same h rfl (by simp) (by simp)
    · exact absurd hstep (by simp)
  | routeDrain here =>
    simp only [step] at hstep
    split at hstep
    · cases hstep
      exact flowOk_of_same h rfl (by simp only; split <;> simp) (by simp only; split <;> simp)
    · exact absurd hstep (by simp)
  | runDrain routed failed locked now =>
    simp only [step] at hstep
    split at hstep
    · split at hstep
      · cases hstep
        exact flowOk_of_same h rfl (by simp) (by simp)
      · rename_i hd
        cases hstep
        exact flowOk_runDrain h hd
    · exact absurd hstep (by simp)
  | finishDrain sent =>
    simp only [step] at hstep
    split at hstep
    · rename_i hrun
      cases hstep
      exact flowOk_finishDrain h hrun _
    · exact absurd hstep (by simp)
  | routeAck entryId ref =>
    simp only [step] at hstep
    split at hstep
    · cases hstep
      exact flowOk_of_same h rfl (by simp) (by simp)
    · exact absurd hstep (by simp)
  | startAck entryId ref routed failed now =>
    simp only [step] at hstep
    split at hstep
    · split at hstep
      · split at hstep <;> cases hstep <;> exact flowOk_of_same h rfl (by simp) (by simp)
      · exact absurd hstep (by simp)
    · exact absurd hstep (by simp)
  | finishAck =>
    simp only [step] at hstep
    split at hstep
    · cases hstep
      exact flowOk_finishAck h _ _ _ _
    · exact absurd hstep (by simp)
  | routeRecover a c ref =>
    simp only [step] at hstep
    split at hstep
    · cases hstep
      rcases routeRecover_spec s a c ref with hs' | ⟨i, hs'⟩ <;> rw [hs']
      · exact h
      · exact flowOk_of_same h rfl (by simp) (by simp)
    · exact absurd hstep (by simp)
  | startRecover routed failed =>
    simp only [step] at hstep
    split at hstep
    · rename_i a i c ref _
      have hs' : (s.startRecover t a i c ref routed failed).2.1 = s' := by rw [Option.some.inj hstep]
      rw [← hs']
      exact flowOk_startRecover h t a i c ref routed failed
    · exact absurd hstep (by simp)
  | finishRecover =>
    simp only [step] at hstep
    split at hstep
    · cases hstep
      exact flowOk_finishRecover h _ _ _ _ _ _
    · exact absurd hstep (by simp)
  | countRecover failed =>
    simp only [step] at hstep
    split at hstep
    · split at hstep
      · cases hstep
        exact flowOk_of_same h rfl (by simp) (by simp)
      · cases hstep
        exact flowOk_of_same h rfl (by simp) (by simp)
    · exact absurd hstep (by simp)

/-- A new socket is under its caps. -/
theorem flowOk_init (cfg : InboxDeliveryConfig) : FlowOk cfg (InboxSocket.init : InboxSocket Key) where
  agree := agree_empty
  agentCap := by simp [InboxSocket.init, inboxInFlightCount, InboxInFlight.empty]
  chatCap := by simp [InboxSocket.init, inboxInFlightCountForChat, bucket, InboxInFlight.empty]
  claimed_agent := by simp [InboxSocket.init]
  claimed_chat := by simp [InboxSocket.init]
  recovering := by simp [InboxSocket.init]

/-! ## Open circuits -/

/-- A fair drain of the agent awaits its route. -/
def AwaitsRoute (agentId : Key) (running : Option (QueueOp Key)) : Prop :=
  ∃ inboxId trigger, running = some (.routing agentId inboxId trigger) ∧ ∀ c, trigger ≠ .recover c

/-- The chat's circuit is open, or the agent is not bound here and no fair drain of it awaits its route: what a circuit leaves
until it is cleared. -/
def Held (agentId chatId : Key) (s : InboxSocket Key) : Prop :=
  s.boundAgents.lookup agentId = none ∧ ¬ AwaitsRoute agentId s.running ∨ s.circuitOpen agentId chatId

omit [DecidableEq Key] in
/-- An operation that is no drain awaiting a route. -/
theorem not_awaitsRoute {a : Key} {running : Option (QueueOp Key)} (h : ∀ a i trigger, running ≠ some (.routing a i trigger)) :
    ¬ AwaitsRoute a running := by
  rintro ⟨i, trigger, hrun, _⟩
  exact h a i trigger hrun

/-- A socket with the same agents, the same progress of the chat and no drain that awaits a route but one that did is held as
before. -/
theorem held_of_same {a c : Key} {s s' : InboxSocket Key} (h : Held a c s) (hbound : s'.boundAgents = s.boundAgents)
    (hprogress : s'.inboxRecoverProgress.lookup (a, c) = s.inboxRecoverProgress.lookup (a, c))
    (hrouting : AwaitsRoute a s'.running → AwaitsRoute a s.running) : Held a c s' := by
  rcases h with ⟨h, hno⟩ | ⟨p, hp, hopen⟩
  · exact Or.inl ⟨hbound ▸ h, fun hawaits => hno (hrouting hawaits)⟩
  · exact Or.inr ⟨p, hprogress.trans hp, hopen⟩

/-- A socket whose queue goes on without awaiting a route is held as before. -/
theorem held_of_running {a c : Key} {s s' : InboxSocket Key} (h : Held a c s) (hbound : s'.boundAgents = s.boundAgents)
    (hprogress : s'.inboxRecoverProgress.lookup (a, c) = s.inboxRecoverProgress.lookup (a, c))
    (hrunning : ∀ a i trigger, s'.running ≠ some (.routing a i trigger)) : Held a c s' :=
  held_of_same h hbound hprogress fun hawaits => absurd hawaits (not_awaitsRoute hrunning)

/-- The answer of an ACK that commits no row of the chat leaves its circuit. -/
theorem held_finishAck {a c : Key} {s : InboxSocket Key} (h : Held a c s) {entryId : Nat} {ref : Option Key}
    {routed : List (Key × Key)} {result : AckEntryResult Key} (hrun : s.running = some (.acked entryId ref routed result))
    (t : InboxTable Key) (hnot : ¬ ClearsCircuit a c s (t, .finishAck)) : Held a c (s.finishAck entryId ref routed result).1 := by
  cases result with
  | rejected reason => exact held_of_running h rfl rfl (by simp [finishAck])
  | ok throughEntry disposition ids =>
    unfold finishAck
    simp only
    split
    · exact held_of_running h rfl rfl (by simp)
    · rename_i owner howner
      split
      · exact held_of_running h rfl rfl (by simp)
      · rename_i hids
        refine held_of_running h rfl ?_ (by simp)
        cases hchat : throughEntry.chatId with
        | none => rfl
        | some c' =>
          by_cases heq : (owner.1, c') = (a, c)
          · simp only [Prod.mk.injEq] at heq
            exact absurd (Or.inr ⟨rfl, entryId, ref, routed, throughEntry, disposition, ids, owner, hrun, hids, heq.2 ▸ hchat,
              howner, heq.1⟩) hnot
          · exact AList.lookup_erase_ne (Ne.symm heq)

/-- A step that clears the chat's circuit neither by an ACK or a bind nor under a drain keeps the chat held. -/
theorem held_step {cfg : InboxDeliveryConfig} {a c : Key} {s s' : InboxSocket Key} {label : InboxTable Key × SocketOp Key}
    (hflow : FlowOk cfg s) (h : Held a c s) (hnot : ¬ ClearsCircuit a c s label) (hawaited : ¬ ClearsAwaited a c s label)
    (hstep : socketStep cfg s label = some s') : Held a c s' := by
  obtain ⟨t, op⟩ := label
  obtain ⟨t', frames, hstep⟩ := socketStep_some hstep
  cases op with
  | bindLocalAgent a' i =>
    cases hstep
    have ha : a ≠ a' := fun heq => hnot (Or.inl ⟨i, by rw [heq]⟩)
    rcases h with ⟨h, hno⟩ | ⟨p, hp, hopen⟩
    · exact Or.inl ⟨(AList.lookup_insert_ne ha).trans h, hno⟩
    · refine Or.inr ⟨p, ?_, hopen⟩
      show (clearInboxRecoverProgress s.inboxRecoverProgress a').lookup (a, c) = some p
      rw [lookup_clearInboxRecoverProgress, if_neg ha]
      exact hp
  | resetOnBind a' failed =>
    simp only [step, Option.map_eq_some_iff] at hstep
    obtain ⟨i, _, hstep⟩ := hstep
    cases hstep
    exact h
  | unbind a' =>
    cases hstep
    rcases h with ⟨h, hno⟩ | h
    · refine Or.inl ⟨?_, hno⟩
      by_cases ha : a = a'
      · subst ha
        exact AList.lookup_erase _ _
      · exact (AList.lookup_erase_ne ha).trans h
    · exact Or.inr h
  | dropLocalAgentBinding a' =>
    cases hstep
    by_cases ha : a = a'
    · subst ha
      refine Or.inl ⟨AList.lookup_erase _ _, ?_⟩
      rcases h with ⟨_, hno⟩ | hopen
      · exact hno
      · exact fun hawaits => hawaited ⟨hopen, Or.inl rfl, hawaits⟩
    · rcases h with ⟨h, hno⟩ | ⟨p, hp, hopen⟩
      · exact Or.inl ⟨(AList.lookup_erase_ne ha).trans h, hno⟩
      · refine Or.inr ⟨p, ?_, hopen⟩
        show (clearInboxRecoverProgress s.inboxRecoverProgress a').lookup (a, c) = some p
        rw [lookup_clearInboxRecoverProgress, if_neg ha]
        exact hp
  | leaveOpen =>
    cases hstep
    exact held_of_same h rfl rfl id
  | close =>
    cases hstep
    refine Or.inl ⟨rfl, ?_⟩
    rcases h with ⟨_, hno⟩ | hopen
    · exact hno
    · exact fun hawaits => hawaited ⟨hopen, Or.inr rfl, hawaits⟩
  | startDrain a' i trigger =>
    simp only [step] at hstep
    split at hstep
    · cases hstep
      exact held_of_running h rfl rfl (by simp)
    · exact absurd hstep (by simp)
  | routeDrain here =>
    simp only [step] at hstep
    split at hstep
    · rename_i a' i trigger hrun
      cases hstep
      rcases h with ⟨h, hno⟩ | hopen
      · refine Or.inl ⟨h, ?_⟩
        rintro ⟨i', trigger', hrouting, _⟩
        simp only at hrouting
        split at hrouting
        · rename_i hawaits
          -- Only a bound agent's drain awaits a route.
          simp only [Option.some.injEq, QueueOp.routing.injEq] at hrouting
          rw [hrouting.1] at hawaits
          simp [awaitsRoute, h] at hawaits
        · exact absurd hrouting (by simp)
      · exact Or.inr hopen
    · exact absurd hstep (by simp)
  | runDrain routed failed locked now =>
    simp only [step] at hstep
    split at hstep
    · split at hstep <;> cases hstep <;> exact held_of_running h rfl rfl (by simp)
    · exact absurd hstep (by simp)
  | finishDrain sent =>
    simp only [step] at hstep
    split at hstep
    · cases hstep
      exact held_of_running h rfl rfl (by simp)
    · exact absurd hstep (by simp)
  | routeAck entryId ref =>
    simp only [step] at hstep
    split at hstep
    · cases hstep
      exact held_of_running h rfl rfl (by simp)
    · exact absurd hstep (by simp)
  | startAck entryId ref routed failed now =>
    simp only [step] at hstep
    split at hstep
    · split at hstep
      · split at hstep <;> cases hstep <;> exact held_of_running h rfl rfl (by simp)
      · exact absurd hstep (by simp)
    · exact absurd hstep (by simp)
  | finishAck =>
    simp only [step] at hstep
    split at hstep
    · rename_i hrun
      cases hstep
      exact held_finishAck h hrun t hnot
    · exact absurd hstep (by simp)
  | routeRecover a' c' ref =>
    simp only [step] at hstep
    split at hstep
    · cases hstep
      rcases routeRecover_spec s a' c' ref with hs' | ⟨i, hs'⟩ <;> rw [hs']
      · exact h
      · exact held_of_running h rfl rfl (by simp)
    · exact absurd hstep (by simp)
  | startRecover routed failed =>
    simp only [step] at hstep
    split at hstep
    · rename_i a' i c' ref _
      have hs' : (s.startRecover t a' i c' ref routed failed).2.1 = s' := by rw [Option.some.inj hstep]
      rw [← hs']
      rcases startRecover_spec t s a' i c' ref routed failed with ⟨_, hs'⟩ | ⟨_, _, hs'⟩ <;> rw [hs'] <;>
        exact held_of_running h rfl rfl (by simp)
    · exact absurd hstep (by simp)
  | finishRecover =>
    simp only [step] at hstep
    split at hstep
    · rename_i a' i' c' ref' prior ids hrun
      cases hstep
      obtain ⟨_, hbound, hnext, hprogress⟩ := finishRecover_spec s a' i' c' ref' prior ids
      have hrunning : ∀ a i trigger, (s.finishRecover a' i' c' ref' prior ids).1.running ≠ some (.routing a i trigger) := by
        intro a i trigger
        rcases hnext with hnext | hnext <;> rw [hnext] <;> simp
      rcases h with ⟨h, _⟩ | hopen
      · exact Or.inl ⟨hbound ▸ h, not_awaitsRoute hrunning⟩
      · have hne : (a, c) ≠ (a', c') := by
          intro heq
          simp only [Prod.mk.injEq] at heq
          obtain ⟨rfl, rfl⟩ := heq
          exact hflow.recovering a i' c ref' prior ids hrun hopen
        exact held_of_running (Or.inr hopen) hbound (hprogress _ hne) hrunning
    · exact absurd hstep (by simp)
  | countRecover failed =>
    simp only [step] at hstep
    split at hstep
    · split at hstep <;> cases hstep <;> exact held_of_running h rfl rfl (by simp)
    · exact absurd hstep (by simp)

/-- A fair drain whose route is known claims no row of a chat whose circuit is open. -/
theorem fairDrain_of_open {cfg : InboxDeliveryConfig} {a c : Key} {s : InboxSocket Key} (hopen : s.circuitOpen a c)
    {t t' : InboxTable Key} {i : Key} {trigger : DrainTrigger Key} {routed failed : Bool} {locked : Nat → Bool} {now : Nat}
    {entries : List (InboxEntry Key)} (hfair : ∀ c', trigger ≠ .recover c')
    (hd : s.drainBacklogForAgent cfg t a i trigger routed failed locked now = some (entries, t')) :
    ∀ e ∈ entries, e.chatId ≠ some c := by
  have hentries : entries = (claimBacklogForPushFair t i (s.drainLimit cfg a trigger) cfg.inboxMaxInFlightPerAgentChat
      (s.inFlight.inboxInFlightChatBudgets s.inboxRecoverProgress a cfg.inboxMaxInFlightPerAgentChat) locked now).1 := by
    have hpair := drainClaim_of_some hd
    cases trigger with
    | recover c' => exact absurd rfl (hfair c')
    | _ => exact (congrArg Prod.fst hpair).symm
  have hnone := (fair_bounds t i (s.drainLimit cfg a trigger) cfg.inboxMaxInFlightPerAgentChat
    (s.inFlight.inboxInFlightChatBudgets s.inboxRecoverProgress a cfg.inboxMaxInFlightPerAgentChat) locked now).2 (some c)
  rw [remaining_of_open hopen, ← hentries, Nat.le_zero, List.length_eq_zero_iff, List.filter_eq_nil_iff] at hnone
  intro e he hec
  exact hnone e he (by simpa using hec)

/-- A held chat stays closed to fair drains, as long as its agent is not cleared under one. -/
theorem closed_of_held {cfg : InboxDeliveryConfig} {s : InboxSocket Key} (hflow : FlowOk cfg s) {a c : Key} (h : Held a c s) :
    ClosedToFairDrains cfg (fun s label => ¬ ClearsAwaited a c s label) s a c := by
  intro later s₁ hlater t i trigger routed failed locked now entries s₂ hrouting hfair hstep hclaimed
  have hkeeps : Runs.Preserves (Runs.Guarded (fun s label => ¬ ClearsCircuit a c s label ∧ ¬ ClearsAwaited a c s label)
      (Runs.ofPartial (socketStep cfg))) fun s => FlowOk cfg s ∧ Held a c s := by
    rintro u label u' ⟨hu, hheld⟩ ⟨⟨hnot, hawaited⟩, hstep⟩
    exact ⟨flowOk_step cfg u label u' hu hstep, held_step hu hheld hnot hawaited hstep⟩
  obtain ⟨_, hheld⟩ := hlater.invariant hkeeps ⟨hflow, h⟩
  have hopen : s₁.circuitOpen a c := by
    rcases hheld with ⟨_, hno⟩ | hopen
    · exact absurd ⟨i, trigger, hrouting, hfair⟩ hno
    · exact hopen
  obtain ⟨t', frames, hstep⟩ := socketStep_some hstep
  simp only [step, hrouting] at hstep
  split at hstep
  · cases hstep
    exact absurd hclaimed (by simp)
  · rename_i entries' t'' hd
    cases hstep
    simp only [Option.some.injEq, QueueOp.claimed.injEq, true_and] at hclaimed
    exact hclaimed ▸ fairDrain_of_open hopen hfair hd

end FlowAux

open FlowAux

/-- Per-socket flow control, over every run of a socket. The in-flight indexes agree: an entry is in the bucket of an agent's chat
exactly when that is its owner, no bucket is empty, and no entry is in two buckets. An agent and an agent's chat never have more
entries in flight than their caps. After a chat's circuit opened, a fair drain of its agent claims no row of the chat until an ACK
that commits rows of it, or a bind of the agent, in every run that does not clear the agent while such a drain awaits its route. -/
theorem socket_flow_control (cfg : InboxDeliveryConfig) {labels : List (InboxTable Key × SocketOp Key)} {s : InboxSocket Key}
    (hrun : Runs.Run (Runs.ofPartial (socketStep cfg)) InboxSocket.init labels s) :
    ((∀ e a ck, s.inFlight.inboxInFlightOwnersByEntryId e = some { agentId := a, chatKey := ck } ↔ e ∈ s.inFlight.bucketIds a ck) ∧
      (∀ a ck b, s.inFlight.bucket a ck = some b → b.entryIds ≠ ∅) ∧
      ∀ e a a' ck ck', e ∈ s.inFlight.bucketIds a ck → e ∈ s.inFlight.bucketIds a' ck' → a = a' ∧ ck = ck') ∧
    (∀ a, s.inFlight.inboxInFlightCount a ≤ cfg.inboxMaxInFlightPerAgent) ∧
    (∀ a c, s.inFlight.inboxInFlightCountForChat a c ≤ cfg.inboxMaxInFlightPerAgentChat) ∧
    ∀ a c, s.circuitOpen a c → ClosedToFairDrains cfg (fun s label => ¬ ClearsAwaited a c s label) s a c := by
  have hflow := hrun.invariant (flowOk_step cfg) (flowOk_init cfg)
  exact ⟨⟨hflow.agree.owner_iff, fun a ck b hb => (hflow.agree.bucket_ok a ck b hb).1,
    fun _ _ _ _ _ => InFlightAux.bucket_unique hflow.agree⟩, hflow.agentCap, hflow.chatCap,
    fun _ _ hopen => closed_of_held hflow (Or.inr hopen)⟩

namespace FlowControlExample

/-- A pending notify row of inbox 10. -/
def pendingRow (id chatId : Nat) : InboxEntry Nat :=
  { id := id, inboxId := 10, messageId := id, chatId := some chatId, status := .pending, notify := true, deliveredAt := none,
    ackedAt := none }

/-- One pending notify row of each of two chats. -/
def twoChats : InboxTable Nat :=
  { rows := [pendingRow 1 5, pendingRow 2 6], keys_nodup := by decide }

/-- The same rows after they were delivered. -/
def twoChatsDelivered : InboxTable Nat :=
  (claimBacklogForPushFair twoChats 10 10 10 ∅ (fun _ => false) 0).2

/-- One recovery of chat 5 that finds its row delivered. -/
def recoverChat : List (InboxTable Nat × SocketOp Nat) :=
  [(twoChatsDelivered, .routeRecover 1 5 0), (twoChatsDelivered, .startRecover true false), (twoChatsDelivered, .finishRecover)]

/-- The rest of an accepted recovery: count, claim nothing, and be idle. -/
def redrain : List (InboxTable Nat × SocketOp Nat) :=
  [(twoChats, .countRecover false), (twoChats, .routeDrain true), (twoChats, .runDrain true true (fun _ => false) 0)]

/-- A bind and three recoveries in a row that reset the same row: the last one opens the circuit of chat 5. -/
def openCircuit : List (InboxTable Nat × SocketOp Nat) :=
  (twoChats, .bindLocalAgent 1 10) :: (recoverChat ++ redrain ++ recoverChat ++ redrain ++ recoverChat)

/-- The caps of the example. -/
def caps : InboxDeliveryConfig :=
  { inboxMaxInFlightPerAgent := 4, inboxMaxInFlightPerAgentChat := 2 }

/-- A drain that was started awaits its route, if the socket can run it on, even after a drop of the binding. -/
theorem routing_of_drained {s s₁ s₂ s₃ u : InboxSocket Nat} {t : InboxTable Nat} {a i : Nat} {trigger : DrainTrigger Nat}
    {routed failed : Bool} {locked : Nat → Bool} {now : Nat} (hs₁ : socketStep caps s (t, .startDrain a i trigger) = some s₁)
    (hs₂ : socketStep caps s₁ (t, .routeDrain true) = some s₂) (hu : u.running = s₂.running)
    (hs₃ : socketStep caps u (t, .runDrain routed failed locked now) = some s₃) : u.running = some (.routing a i trigger) := by
  have hdrain : s₁.running = some (.drain a i trigger) := by
    obtain ⟨_, _, hstep⟩ := socketStep_some hs₁
    simp only [step] at hstep
    split at hstep
    · cases hstep
      rfl
    · exact absurd hstep (by simp)
  obtain ⟨_, _, hroute⟩ := socketStep_some hs₂
  simp only [step, hdrain, Option.some.injEq, Prod.mk.injEq] at hroute
  obtain ⟨_, rfl, _⟩ := hroute
  obtain ⟨_, _, hstep⟩ := socketStep_some hs₃
  by_cases hawaits : s₁.awaitsRoute a true = true
  · simpa [hawaits] using hu
  · simp [step, hu, hawaits] at hstep

/-- The claim a socket is read to await is the one it awaits. -/
theorem running_of_awaitedClaim {s : InboxSocket Nat} {claim : Nat × List (InboxEntry Nat)} (h : s.awaitedClaim = some claim) :
    s.running = some (.claimed claim.1 claim.2) := by
  unfold awaitedClaim at h
  split at h
  · rename_i hrun
    rw [hrun]
    cases h
    rfl
  · exact absurd h (by simp)

/-- With the circuit of chat 5 open, a notify drain claims the row of chat 6 only. -/
theorem socket_flow_control_open :
    ∃ s s₁ s₂ s₃ entries, openCircuit.foldlM (socketStep caps) InboxSocket.init = some s ∧ s.circuitOpen 1 5 ∧
      socketStep caps s (twoChats, .startDrain 1 10 (.notify 21)) = some s₁ ∧
      socketStep caps s₁ (twoChats, .routeDrain true) = some s₂ ∧
      socketStep caps s₂ (twoChats, .runDrain true false (fun _ => false) 0) = some s₃ ∧
      s₃.running = some (.claimed 1 entries) ∧ entries.map (·.id) = [2] ∧
      s.inFlight.inboxInFlightCount 1 ≤ 4 ∧ ∀ e ∈ entries, e.chatId ≠ some 5 := by
  have hopened : ((openCircuit.foldlM (socketStep caps) InboxSocket.init).bind fun s =>
      (socketStep caps s (twoChats, .startDrain 1 10 (.notify 21))).bind fun s₁ =>
        (socketStep caps s₁ (twoChats, .routeDrain true)).bind fun s₂ =>
          (socketStep caps s₂ (twoChats, .runDrain true false (fun _ => false) 0)).bind fun s₃ =>
            s₃.awaitedClaim.map fun claim =>
              ((s.inboxRecoverProgress.lookup (1, 5)).map (·.open), claim.1, claim.2.map (·.id))) = some (some true, 1, [2]) := by
    decide
  simp only [Option.bind_eq_some_iff, Option.map_eq_some_iff] at hopened
  obtain ⟨s, hs, s₁, hs₁, s₂, hs₂, s₃, hs₃, ⟨a, entries⟩, hawaited, hclaimed⟩ := hopened
  simp only [Prod.mk.injEq, Option.map_eq_some_iff] at hclaimed
  obtain ⟨hopen, rfl, hids⟩ := hclaimed
  have hrun := running_of_awaitedClaim hawaited
  have hstart : ¬ ClearsCircuit 1 5 s (twoChats, .startDrain 1 10 (.notify 21)) ∧
      ¬ ClearsAwaited 1 5 s (twoChats, .startDrain 1 10 (.notify 21)) := by
    simp [ClearsCircuit, ClearsAwaited]
  have hroute : ¬ ClearsCircuit 1 5 s₁ (twoChats, .routeDrain true) ∧ ¬ ClearsAwaited 1 5 s₁ (twoChats, .routeDrain true) := by
    simp [ClearsCircuit, ClearsAwaited]
  obtain ⟨_, hcount, _, hcircuit⟩ := socket_flow_control caps (Runs.Run.of_foldlM hs)
  exact ⟨s, s₁, s₂, s₃, entries, hs, hopen, hs₁, hs₂, hs₃, hrun, hids, hcount 1,
    hcircuit 1 5 hopen _ s₂ (.snoc (.single ⟨hstart, hs₁⟩) ⟨hroute, hs₂⟩) _ _ _ _ _ _ _ entries s₃
      (routing_of_drained hs₁ hs₂ rfl hs₃) (by simp) hs₃ hrun⟩

/-- A notify drain that awaits its route while the binding of its agent is dropped goes on with a window for chat 5 and claims its
row, though no ACK and no bind has cleared the circuit. -/
theorem cleared_under_drain_claims :
    ¬ ∀ labels (s : InboxSocket Nat), Runs.Run (Runs.ofPartial (socketStep caps)) InboxSocket.init labels s →
      ∀ a c, s.circuitOpen a c → ClosedToFairDrains caps (fun _ _ => True) s a c := by
  intro hall
  have hclaimed : ((openCircuit.foldlM (socketStep caps) InboxSocket.init).bind fun s =>
      (socketStep caps s (twoChats, .startDrain 1 10 (.notify 21))).bind fun s₁ =>
        (socketStep caps s₁ (twoChats, .routeDrain true)).bind fun s₂ =>
          (socketStep caps (s₂.dropLocalAgentBinding 1) (twoChats, .runDrain true false (fun _ => false) 0)).bind fun s₃ =>
            s₃.awaitedClaim.map fun claim =>
              ((s.inboxRecoverProgress.lookup (1, 5)).map (·.open), claim.1, claim.2.map (·.chatId))) =
      some (some true, 1, [some 5, some 6]) := by
    decide
  simp only [Option.bind_eq_some_iff, Option.map_eq_some_iff] at hclaimed
  obtain ⟨s, hs, s₁, hs₁, s₂, hs₂, s₃, hs₃, ⟨a, entries⟩, hawaited, hclaimed⟩ := hclaimed
  simp only [Prod.mk.injEq, Option.map_eq_some_iff] at hclaimed
  obtain ⟨hopen, rfl, hchats⟩ := hclaimed
  have hdrop : socketStep caps s₂ (twoChats, .dropLocalAgentBinding 1) = some (s₂.dropLocalAgentBinding 1) := rfl
  have hlater : Runs.Run (Runs.Guarded (fun u label => ¬ ClearsCircuit 1 5 u label ∧ True) (Runs.ofPartial (socketStep caps))) s
      [(twoChats, .startDrain 1 10 (.notify 21)), (twoChats, .routeDrain true), (twoChats, .dropLocalAgentBinding 1)]
      (s₂.dropLocalAgentBinding 1) :=
    .snoc (.snoc (.single ⟨by simp [ClearsCircuit], hs₁⟩) ⟨by simp [ClearsCircuit], hs₂⟩) ⟨by simp [ClearsCircuit], hdrop⟩
  obtain ⟨e, he, hchat⟩ : ∃ e ∈ entries, e.chatId = some 5 := by
    have hmem : some 5 ∈ entries.map (·.chatId) := by
      rw [hchats]
      exact List.mem_cons_self
    exact List.mem_map.mp hmem
  exact hall _ s (Runs.Run.of_foldlM hs) 1 5 hopen _ _ hlater twoChats 10 (.notify 21) true false _ 0 entries s₃
    (routing_of_drained hs₁ hs₂ rfl hs₃) (by simp) hs₃ (running_of_awaitedClaim hawaited) e he hchat

end FlowControlExample

end FirstTree
