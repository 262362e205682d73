import FirstTree.Lib.Runs
import FirstTree.Server.RuntimeSwitch

/-!
# The safety of runtime switches

A claim in the agent's metadata is a lock: it is recorded over the route it names and only its phase and its id let a statement
move or release it. The lifecycle calls and the abort write a status without looking at what has happened since they read, and the
detach does not look at the claim at all, so the lock holds in the runs where these come in time.
-/

namespace FirstTree

open Runs Transactions AgentRuntime RuntimeSwitch

variable {Call : Type} [DecidableEq Call]

namespace RuntimeSwitch

/-- An event that clears a claim. -/
def clears (id : String) : SwitchEvent → Prop
  | .cleared claimId => claimId = id
  | .aborted claimId _ => claimId = id
  | _ => False

/-- An event by which a call that held a claim disconnects the agent, sets it offline or evicts its sessions. -/
def detaches (id : String) : SwitchEvent → Prop
  | .disconnected claimId => claimId = id
  | .offline claimId => claimId = id
  | .evicted claimId => claimId = id
  | _ => False

/-- The row is on the route its claim names. -/
def OnClaimedRoute (row : AgentRow) (claim : RuntimeSwitchClaim) : Prop :=
  match claim.phase with
  | .claimed => oldClientCondition row claim.oldClientId ∧ row.runtimeProvider = claim.oldRuntimeProvider
  | .committed => row.clientId = some claim.targetClientId ∧ row.runtimeProvider = claim.targetRuntimeProvider

/-- What is safe in a state: the claim present is one claim, the agent is not active under it and is on its route; a deleted agent
stays deleted; a switch that failed before its commit is undone, down to the route, provider and status its claim was recorded
over; and a cleared claim is followed by no detach in its name. -/
structure SwitchSafe (store : SwitchStore) : Prop where
  present : store.row.metadata.lookup runtimeSwitchKey ≠ none → ∃ claim, getRuntimeSwitchClaim store.row.metadata = some claim
  inactive : store.row.metadata.lookup runtimeSwitchKey ≠ none → store.row.status ≠ .active
  route : ∀ claim, getRuntimeSwitchClaim store.row.metadata = some claim → OnClaimedRoute store.row claim
  deleted : .deleted ∈ store.history → store.row.status = .deleted
  restored : ∀ id before after, .claimed id before ∈ store.history → .aborted id after ∈ store.history → after = before
  failed : ∀ id, .failed id ∈ store.history →
    .committed id ∉ store.history ∧ ∃ route, .claimed id route ∈ store.history ∧ .aborted id route ∈ store.history
  cleared : store.history.Pairwise fun earlier later => ∀ id, clears id earlier → ¬ detaches id later

/-- In every run from a row without a claim every state is safe. -/
def AlwaysSafe (steps : SwitchSystem Call → SwitchOp Call → SwitchSystem Call → Prop) : Prop :=
  ∀ store, store.row.metadata.lookup runtimeSwitchKey = none → store.history = [] →
    ∀ ops s, Run steps (.idle store) ops s → SwitchSafe s.store

/-- A call that is about to detach the old runtime of a claim. -/
def detachPending (id : String) : SwitchStatement → Prop
  | .detachRevoke claim => claim.claimId = id
  | .detachDisconnect claim => claim.claimId = id
  | .detachOffline claim => claim.claimId = id
  | _ => False

/-- A statement comes in time: the lifecycle calls write over no deletion, and no reactivation over a claim; a claim is aborted
over no deletion; and a claim is cleared when no other call that holds it is still about to detach. -/
def ComesInTime (text : JsonText) (s : SwitchSystem Call) : SwitchOp Call → Prop
  | .run call _ => ∀ open_, s.find call = some open_ → match open_.next with
    | .suspendWrite => s.store.row.status ≠ .deleted
    | .reactivateWrite => s.store.row.status ≠ .deleted ∧ s.store.row.metadata.lookup runtimeSwitchKey = none
    | .switchAbort claim => holdsClaim text s.store.row claim.claimId .claimed → s.store.row.status ≠ .deleted
    | .recoverAbort claim => holdsClaim text s.store.row claim.claimId .claimed → s.store.row.status ≠ .deleted
    | .reactivateClaim claim => holdsClaim text s.store.row claim.claimId .committed →
        ∀ other ∈ s.others call, ¬ detachPending claim.claimId other.next
    | _ => True
  | _ => True

end RuntimeSwitch

namespace RuntimeSwitchAux

/-! ## The stored claim -/

/-- A stored claim is read back. -/
theorem getRuntimeSwitchClaim_toJson {metadata : Metadata} {claim : RuntimeSwitchClaim}
    (h : metadata.lookup runtimeSwitchKey = some (RuntimeSwitchClaim.toJson claim)) :
    getRuntimeSwitchClaim metadata = some claim := by
  have hphase : parsePhase (phaseName claim.phase) = some claim.phase := by
    cases claim.phase with
    | claimed => rfl
    | committed => rfl
  simp [getRuntimeSwitchClaim, h, RuntimeSwitchClaim.toJson, Json.field?, Json.string?, hphase]

/-- A row with a stored claim. -/
def Holds (row : AgentRow) (claim : RuntimeSwitchClaim) : Prop :=
  row.metadata.lookup runtimeSwitchKey = some (RuntimeSwitchClaim.toJson claim)

/-- A row has one claim. -/
theorem Holds.unique {row : AgentRow} {claim claim' : RuntimeSwitchClaim} (h : Holds row claim) (h' : Holds row claim') :
    claim = claim' :=
  Option.some.inj ((getRuntimeSwitchClaim_toJson h).symm.trans (getRuntimeSwitchClaim_toJson h'))

/-- The conditions on the stored claim name its id and its phase. -/
theorem holdsClaim_iff {text : JsonText} {row : AgentRow} {claim : RuntimeSwitchClaim} (h : Holds row claim) (id : String)
    (phase : RuntimeSwitchPhase) : holdsClaim text row id phase ↔ claim.claimId = id ∧ claim.phase = phase := by
  have hid : textAt text row.metadata runtimeSwitchKey "claimId" = some claim.claimId := by
    simp only [Holds] at h
    simp [textAt, h, RuntimeSwitchClaim.toJson, Json.field?, text.read_str]
  have hphase : textAt text row.metadata runtimeSwitchKey "phase" = some (phaseName claim.phase) := by
    simp only [Holds] at h
    simp [textAt, h, RuntimeSwitchClaim.toJson, Json.field?, text.read_str]
  rw [holdsClaim, hid, hphase, Option.some.injEq, Option.some.injEq]
  refine and_congr_right fun _ => ⟨fun hname => ?_, fun hname => by rw [hname]⟩
  cases hc : claim.phase <;> cases phase <;> simp_all [phaseName]

/-- Without a claim no condition on it holds. -/
theorem not_holdsClaim {text : JsonText} {row : AgentRow} (h : row.metadata.lookup runtimeSwitchKey = none) (id : String)
    (phase : RuntimeSwitchPhase) : ¬ holdsClaim text row id phase := by
  rintro ⟨hid, _⟩
  simp [textAt, h] at hid

/-! ## What the statements write -/

/-- The route a claim was recorded over. -/
def oldRoute (claim : RuntimeSwitchClaim) : SwitchRoute :=
  { clientId := if claim.oldClientId ≠ "" then some claim.oldClientId else none, runtimeProvider := claim.oldRuntimeProvider
    status := if claim.oldClientId ≠ "" then .active else .suspended }

/-- A row that a switch may start from. -/
def Switchable (row : AgentRow) : Prop :=
  (row.status = .active ∧ row.clientId.getD "" ≠ "") ∨ (row.status = .suspended ∧ row.clientId.getD "" = "")

/-- A claim is recorded over its old route, where no claim was. -/
theorem claim_spec {current row row' : AgentRow} {claim : RuntimeSwitchClaim} (h : claimRuntimeSwitch current claim row = some row')
    (hcurrent : Switchable current) (hold : claim.oldClientId = current.clientId.getD "") :
    row.metadata.lookup runtimeSwitchKey = none ∧ routeOf row = oldRoute claim ∧ Holds row' claim ∧ row'.status = .suspended ∧
      oldClientCondition row' claim.oldClientId ∧ row'.runtimeProvider = claim.oldRuntimeProvider ∧ row.status ≠ .deleted := by
  unfold claimRuntimeSwitch at h
  split at h
  · next hwhere =>
    obtain ⟨hstatus, hclient, hprovider, hnone⟩ := hwhere
    obtain rfl := Option.some.inj h
    have hroute : routeOf row = oldRoute claim := by
      unfold routeOf oldRoute
      rw [hprovider, hstatus]
      unfold oldClientCondition at hclient
      unfold Switchable at hcurrent
      rw [← hold] at hcurrent
      rcases hcurrent with ⟨hactive, hne⟩ | ⟨hsuspended, hempty⟩
      · rw [if_pos hne] at hclient
        rw [hclient, hactive, if_pos hne, if_pos hne]
      · rw [if_neg (not_not.mpr hempty)] at hclient
        rw [hclient, hsuspended, if_neg (not_not.mpr hempty), if_neg (not_not.mpr hempty)]
    refine ⟨hnone, hroute, AList.lookup_insert _, rfl, hclient, hprovider, ?_⟩
    rw [hstatus]
    rcases hcurrent with ⟨hactive, _⟩ | ⟨hsuspended, _⟩
    · simp [hactive]
    · simp [hsuspended]
  · cases h

/-- A commit finds its claim, moves the agent to the target and keeps it suspended. -/
theorem commit_spec {text : JsonText} {claim : RuntimeSwitchClaim} {clientAvailable : Bool} {row row' : AgentRow}
    (h : commitRuntimeSwitch text claim clientAvailable row = some row') :
    holdsClaim text row claim.claimId .claimed ∧ Holds row' { claim with phase := .committed } ∧ row.status = .suspended ∧
      row'.status = .suspended ∧ row'.clientId = some claim.targetClientId ∧ row'.runtimeProvider = claim.targetRuntimeProvider := by
  unfold commitRuntimeSwitch at h
  split at h
  · next hwhere =>
    obtain rfl := Option.some.inj h
    exact ⟨hwhere.2.2.2.1, AList.lookup_insert _, hwhere.1, hwhere.1, rfl, rfl⟩
  · cases h

/-- An abort finds its claim and restores the route it was recorded over. -/
theorem abort_spec {text : JsonText} {claim : RuntimeSwitchClaim} {row row' : AgentRow}
    (h : abortRuntimeSwitchClaim text claim row = some row') :
    holdsClaim text row claim.claimId .claimed ∧ oldClientCondition row claim.oldClientId ∧
      row.runtimeProvider = claim.oldRuntimeProvider ∧ row'.metadata.lookup runtimeSwitchKey = none ∧
        routeOf row' = oldRoute claim := by
  unfold abortRuntimeSwitchClaim at h
  split at h
  · next hwhere =>
    obtain ⟨hclient, hprovider, hholds⟩ := hwhere
    obtain rfl := Option.some.inj h
    refine ⟨hholds, hclient, hprovider, AList.lookup_erase _ _, ?_⟩
    unfold oldClientCondition at hclient
    unfold routeOf oldRoute
    split at hclient <;> simp_all
  · cases h

/-- A row is on one old route. -/
theorem oldRoute_eq {row : AgentRow} {claim claim' : RuntimeSwitchClaim} (h : oldClientCondition row claim.oldClientId)
    (h' : oldClientCondition row claim'.oldClientId) (hprovider : row.runtimeProvider = claim.oldRuntimeProvider)
    (hprovider' : row.runtimeProvider = claim'.oldRuntimeProvider) : oldRoute claim = oldRoute claim' := by
  have hclient : claim.oldClientId = claim'.oldClientId := by
    unfold oldClientCondition at h h'
    by_cases he : claim.oldClientId = "" <;> by_cases he' : claim'.oldClientId = "" <;> simp_all
  rw [oldRoute, oldRoute, hclient, ← hprovider, ← hprovider']

/-- An abort whose claim is present finds it. -/
theorem abort_isSome {text : JsonText} {claim : RuntimeSwitchClaim} {row : AgentRow} (h : Holds row claim)
    (hphase : claim.phase = .claimed)
    (hroute : OnClaimedRoute row claim) : (abortRuntimeSwitchClaim text claim row).isSome = true := by
  unfold OnClaimedRoute at hroute
  rw [hphase] at hroute
  rw [abortRuntimeSwitchClaim, if_pos ⟨hroute.1, hroute.2, (holdsClaim_iff h _ _).mpr ⟨rfl, hphase⟩⟩]
  rfl

/-- A reactivation finds its committed claim and removes it from a suspended agent. -/
theorem reactivate_spec {text : JsonText} {claim : RuntimeSwitchClaim} {row row' : AgentRow}
    (h : reactivateCommittedRuntimeSwitch text claim row = some row') :
    holdsClaim text row claim.claimId .committed ∧ row'.metadata.lookup runtimeSwitchKey = none ∧ row.status = .suspended := by
  unfold reactivateCommittedRuntimeSwitch at h
  split at h
  · next hwhere =>
    obtain rfl := Option.some.inj h
    exact ⟨hwhere.2.2.2, AList.lookup_erase _ _, hwhere.1⟩
  · cases h

/-- A revoke keeps the route, the status and the claim. -/
theorem revoke_spec (row : AgentRow) (expected : Option String) :
    routeOf ((revokeAgentRuntimeSession row expected).getD row) = routeOf row ∧
      ((revokeAgentRuntimeSession row expected).getD row).metadata.lookup runtimeSwitchKey =
        row.metadata.lookup runtimeSwitchKey := by
  unfold revokeAgentRuntimeSession
  split
  · exact ⟨rfl, AList.lookup_erase_ne (by decide)⟩
  · exact ⟨rfl, rfl⟩

/-! ## The history -/

/-- The claim an event is about. -/
def eventClaim : SwitchEvent → Option String
  | .claimed id _ => some id
  | .committed id => some id
  | .aborted id _ => some id
  | .cleared id => some id
  | .disconnected id => some id
  | .offline id => some id
  | .evicted id => some id
  | .failed id => some id
  | .deleted => none

/-- The history of claims that are each recorded once, restored when aborted, and left alone when cleared. -/
structure HistoryOk (history : List SwitchEvent) : Prop where
  once : ∀ id r r', .claimed id r ∈ history → .claimed id r' ∈ history → r = r'
  restored : ∀ id before after, .claimed id before ∈ history → .aborted id after ∈ history → after = before
  failed : ∀ id, .failed id ∈ history → .committed id ∉ history ∧ ∃ route, .claimed id route ∈ history ∧ .aborted id route ∈ history
  cleared : history.Pairwise fun earlier later => ∀ id, clears id earlier → ¬ detaches id later

/-- What may come next in a history. -/
def NextEvent (history : List SwitchEvent) : SwitchEvent → Prop
  | .claimed id _ => ∀ e ∈ history, eventClaim e ≠ some id
  | .committed id => .failed id ∉ history
  | .aborted id route => ∀ r, .claimed id r ∈ history → route = r
  | .failed id => .committed id ∉ history ∧ ∃ route, .claimed id route ∈ history ∧ .aborted id route ∈ history
  | .disconnected id => ∀ e ∈ history, ¬ clears id e
  | .offline id => ∀ e ∈ history, ¬ clears id e
  | .evicted id => ∀ e ∈ history, ¬ clears id e
  | .cleared _ => True
  | .deleted => True

/-- The next event keeps what holds of the history. -/
theorem HistoryOk.append {history : List SwitchEvent} (h : HistoryOk history) {e : SwitchEvent} (he : NextEvent history e) :
    HistoryOk (history ++ [e]) where
  once id r r' hr hr' := by
    rcases List.mem_append.mp hr with hold | hnew <;> rcases List.mem_append.mp hr' with hold' | hnew'
    · exact h.once id r r' hold hold'
    · obtain rfl := List.mem_singleton.mp hnew'
      exact absurd rfl (he (.claimed id r) hold)
    · obtain rfl := List.mem_singleton.mp hnew
      exact absurd rfl (he (.claimed id r') hold')
    · have heq := (List.mem_singleton.mp hnew).trans (List.mem_singleton.mp hnew').symm
      exact (SwitchEvent.claimed.inj heq).2
  restored id before after hb ha := by
    rcases List.mem_append.mp hb with hold | hnew <;> rcases List.mem_append.mp ha with hold' | hnew'
    · exact h.restored id before after hold hold'
    · obtain rfl := List.mem_singleton.mp hnew'
      exact he before hold
    · obtain rfl := List.mem_singleton.mp hnew
      exact absurd rfl (he (.aborted id after) hold')
    · cases (List.mem_singleton.mp hnew).trans (List.mem_singleton.mp hnew').symm
  failed id hf := by
    have hkept : ∀ {route}, (.claimed id route ∈ history ∧ .aborted id route ∈ history) →
        (.claimed id route ∈ history ++ [e] ∧ .aborted id route ∈ history ++ [e]) :=
      fun hmem => ⟨List.mem_append_left _ hmem.1, List.mem_append_left _ hmem.2⟩
    rcases List.mem_append.mp hf with hold | hnew
    · obtain ⟨hcommitted, route, hroute⟩ := h.failed id hold
      refine ⟨fun hmem => ?_, route, hkept hroute⟩
      rcases List.mem_append.mp hmem with hmem | hmem
      · exact hcommitted hmem
      · obtain rfl := List.mem_singleton.mp hmem
        exact he hold
    · obtain rfl := List.mem_singleton.mp hnew
      obtain ⟨hcommitted, route, hroute⟩ := he
      refine ⟨fun hmem => ?_, route, hkept hroute⟩
      rcases List.mem_append.mp hmem with hmem | hmem
      · exact hcommitted hmem
      · cases List.mem_singleton.mp hmem
  cleared := by
    refine List.pairwise_append.mpr ⟨h.cleared, List.pairwise_singleton _ _,
      fun earlier hearlier later hlater id hclears hdetaches => ?_⟩
    obtain rfl := List.mem_singleton.mp hlater
    cases later with
    | disconnected id' =>
      obtain rfl : id' = id := hdetaches
      exact he earlier hearlier hclears
    | offline id' =>
      obtain rfl : id' = id := hdetaches
      exact he earlier hearlier hclears
    | evicted id' =>
      obtain rfl : id' = id := hdetaches
      exact he earlier hearlier hclears
    | _ => exact hdetaches

/-! ## The invariant -/

/-- What holds while a claim is present. -/
structure ClaimOk (row : AgentRow) (history : List SwitchEvent) (claim : RuntimeSwitchClaim) : Prop where
  route : OnClaimedRoute row claim
  inactive : row.status ≠ .active
  named : claim.claimId ≠ ""
  recorded : .claimed claim.claimId (oldRoute claim) ∈ history
  uncleared : ∀ e ∈ history, ¬ clears claim.claimId e

/-- What holds of the row and the history. -/
structure StoreOk (store : SwitchStore) : Prop where
  history : HistoryOk store.history
  issued : ∀ e ∈ store.history, ∀ id, eventClaim e = some id → id ∈ store.issuedClaims
  deleted : .deleted ∈ store.history → store.row.status = .deleted
  claim : store.row.metadata.lookup runtimeSwitchKey = none ∨ ∃ claim, Holds store.row claim ∧ ClaimOk store.row store.history claim

/-- A switch has recorded its claim and not committed it: the claim is present, or aborted. -/
structure Recorded (store : SwitchStore) (claim : RuntimeSwitchClaim) : Prop where
  phase : claim.phase = .claimed
  recorded : .claimed claim.claimId (oldRoute claim) ∈ store.history
  uncommitted : .committed claim.claimId ∉ store.history
  unfailed : .failed claim.claimId ∉ store.history
  present : Holds store.row claim ∨ .aborted claim.claimId (oldRoute claim) ∈ store.history

/-- The committed claim of an id is present. -/
def Committed (store : SwitchStore) (id : String) : Prop :=
  ∃ claim, Holds store.row claim ∧ claim.claimId = id ∧ claim.phase = .committed

/-- What the next statement of a call rests on. -/
def NextOk (store : SwitchStore) : SwitchStatement → Prop
  | .switchCheck _ current => Switchable current
  | .switchClaim current claim => Switchable current ∧ claim.oldClientId = current.clientId.getD "" ∧ claim.phase = .claimed ∧
      claim.claimId ∈ store.issuedClaims ∧ claim.claimId ≠ "" ∧ ∀ e ∈ store.history, eventClaim e ≠ some claim.claimId
  | .switchCommit claim => Recorded store claim ∧ claim.claimId ≠ ""
  | .switchAbort claim => Recorded store claim ∧ claim.claimId ≠ ""
  | .detachRevoke claim => Committed store claim.claimId ∧ claim.claimId ≠ ""
  | .detachDisconnect claim => Committed store claim.claimId ∧ claim.claimId ≠ ""
  | .detachOffline claim => Committed store claim.claimId ∧ claim.claimId ≠ ""
  | .archiveSessions claim => claim.claimId ≠ ""
  | .reactivateClaim claim => claim.claimId ≠ ""
  | _ => True

/-- A switch that has minted a claim id and not yet ended or committed. -/
def ownsClaim (id : String) : SwitchStatement → Prop
  | .switchClaim _ claim => claim.claimId = id
  | .switchCommit claim => claim.claimId = id
  | .switchAbort claim => claim.claimId = id
  | _ => False

/-- The invariant of the agent and the calls open on it: no two switches own one claim. -/
abbrev Sound (s : SwitchSystem Call) : Prop :=
  Invariant StoreOk (fun store call => NextOk store call.next) (Exclusive fun call id => ownsClaim id call.next) s

/-! ## What a step leaves to the other calls -/

/-- What a step that acts for its own claims, and may clear some, leaves as it was. -/
structure Later (own clear : String → Prop) (store store' : SwitchStore) : Prop where
  history : ∃ es, store'.history = store.history ++ es ∧ ∀ e ∈ es,
    (∀ id, eventClaim e = some id → own id ∨ ∃ e' ∈ store.history, eventClaim e' = some id) ∧
    (∀ id, e = .committed id → own id) ∧ ∀ id, e = .failed id → own id
  issued : ∀ id ∈ store.issuedClaims, id ∈ store'.issuedClaims
  claimed : ∀ claim, claim.phase = .claimed → Holds store.row claim →
    Holds store'.row claim ∨ own claim.claimId ∨ .aborted claim.claimId (oldRoute claim) ∈ store'.history
  committed : ∀ claim, claim.phase = .committed → Holds store.row claim → Holds store'.row claim ∨ clear claim.claimId

/-- A step that writes no event and keeps the claim leaves everything as it was. -/
theorem Later.of_same {own clear : String → Prop} {store store' : SwitchStore} (hhistory : store'.history = store.history)
    (hissued : ∀ id ∈ store.issuedClaims, id ∈ store'.issuedClaims)
    (hclaim : store'.row.metadata.lookup runtimeSwitchKey = store.row.metadata.lookup runtimeSwitchKey) :
    Later own clear store store' where
  history := ⟨[], by rw [hhistory, List.append_nil], by simp⟩
  issued := hissued
  claimed claim _ h := Or.inl (hclaim.trans h)
  committed claim _ h := Or.inl (hclaim.trans h)

/-- A switch that has recorded a claim it does not own keeps it, or finds it aborted. -/
theorem Recorded.later {own clear : String → Prop} {store store' : SwitchStore} {claim : RuntimeSwitchClaim}
    (h : Recorded store claim) (hl : Later own clear store store') (hown : ¬ own claim.claimId) : Recorded store' claim := by
  obtain ⟨es, hhistory, hes⟩ := hl.history
  have hold : ∀ {e}, e ∈ store.history → e ∈ store'.history := fun he => hhistory ▸ List.mem_append_left es he
  refine ⟨h.phase, hold h.recorded, fun hmem => ?_, fun hmem => ?_, ?_⟩
  · rw [hhistory] at hmem
    rcases List.mem_append.mp hmem with hmem | hmem
    · exact h.uncommitted hmem
    · exact hown ((hes _ hmem).2.1 _ rfl)
  · rw [hhistory] at hmem
    rcases List.mem_append.mp hmem with hmem | hmem
    · exact h.unfailed hmem
    · exact hown ((hes _ hmem).2.2 _ rfl)
  · rcases h.present with hholds | haborted
    · rcases hl.claimed claim h.phase hholds with hholds | hmine | haborted
      · exact Or.inl hholds
      · exact absurd hmine hown
      · exact Or.inr haborted
    · exact Or.inr (hold haborted)

/-- A committed claim that is not cleared stays. -/
theorem Committed.later {own clear : String → Prop} {store store' : SwitchStore} {id : String} (h : Committed store id)
    (hl : Later own clear store store') (hclear : ¬ clear id) : Committed store' id := by
  obtain ⟨claim, hholds, rfl, hphase⟩ := h
  rcases hl.committed claim hphase hholds with hholds | hc
  · exact ⟨claim, hholds, rfl, hphase⟩
  · exact absurd hc hclear

/-- What a call rests on is left to it by a step that acts for other claims and clears none it is about to detach. -/
theorem NextOk.later {own clear : String → Prop} {store store' : SwitchStore} {next : SwitchStatement} (h : NextOk store next)
    (hl : Later own clear store store') (hown : ∀ id, ownsClaim id next → ¬ own id)
    (hclear : ∀ id, detachPending id next → ¬ clear id) :
    NextOk store' next := by
  cases next with
  | switchCheck input current => exact h
  | switchClaim current claim =>
    obtain ⟨hcurrent, hold, hphase, hissued, hne, hnew⟩ := h
    refine ⟨hcurrent, hold, hphase, hl.issued _ hissued, hne, fun e he heq => ?_⟩
    obtain ⟨es, hhistory, hes⟩ := hl.history
    rw [hhistory] at he
    rcases List.mem_append.mp he with he | he
    · exact hnew e he heq
    · rcases (hes e he).1 _ heq with hmine | ⟨e', he', heq'⟩
      · exact hown _ rfl hmine
      · exact hnew e' he' heq'
  | switchCommit claim => exact ⟨h.1.later hl (hown _ rfl), h.2⟩
  | switchAbort claim => exact ⟨h.1.later hl (hown _ rfl), h.2⟩
  | detachRevoke claim => exact ⟨h.1.later hl (hclear _ rfl), h.2⟩
  | detachDisconnect claim => exact ⟨h.1.later hl (hclear _ rfl), h.2⟩
  | detachOffline claim => exact ⟨h.1.later hl (hclear _ rfl), h.2⟩
  | archiveSessions claim => exact h
  | reactivateClaim claim => exact h
  | _ => trivial

/-! ## One statement -/

/-- The claim ids a statement clears. -/
def clearing (text : JsonText) (store : SwitchStore) (next : SwitchStatement) (id : String) : Prop :=
  ∃ claim, next = .reactivateClaim claim ∧ claim.claimId = id ∧ holdsClaim text store.row id .committed

/-- What a statement of a call does. -/
structure Ran (text : JsonText) (store : SwitchStore) (next : SwitchStatement) (ran : SwitchStore × Option SwitchStatement) :
    Prop where
  sound : StoreOk ran.1
  goesOn : ∀ next', ran.2 = some next' → NextOk ran.1 next' ∧ ∀ id, ownsClaim id next' → ownsClaim id next ∨ id ∉ store.issuedClaims
  later : Later (fun id => ownsClaim id next) (clearing text store next) store ran.1

/-- A statement that writes nothing and goes on to a statement that owns nothing. -/
theorem Ran.skip {text : JsonText} {store : SwitchStore} {next : SwitchStatement} {next' : Option SwitchStatement} (h : StoreOk store)
    (hnext : ∀ n, next' = some n → NextOk store n ∧ ∀ id, ¬ ownsClaim id n) : Ran text store next (store, next') where
  sound := h
  goesOn n hn := ⟨(hnext n hn).1, fun id hid => absurd hid ((hnext n hn).2 id)⟩
  later := .of_same rfl (fun _ hid => hid) rfl

/-- Another row on the same route with the same claim: its status is not active under a claim, nor other than deleted after a
deletion. -/
theorem StoreOk.write {store : SwitchStore} (h : StoreOk store) {row : AgentRow} (hclient : row.clientId = store.row.clientId)
    (hprovider : row.runtimeProvider = store.row.runtimeProvider)
    (hclaim : row.metadata.lookup runtimeSwitchKey = store.row.metadata.lookup runtimeSwitchKey)
    (hinactive : (∃ claim, Holds store.row claim) → store.row.status ≠ .active → row.status ≠ .active)
    (hdeleted : store.row.status = .deleted → row.status = .deleted) : StoreOk { store with row := row } where
  history := h.history
  issued := h.issued
  deleted hmem := hdeleted (h.deleted hmem)
  claim := by
    rcases h.claim with hnone | ⟨claim, hholds, hok⟩
    · exact Or.inl (hclaim.trans hnone)
    · refine Or.inr ⟨claim, hclaim.trans hholds, ?_, hinactive ⟨claim, hholds⟩ hok.inactive, hok.named, hok.recorded, hok.uncleared⟩
      have hroute := hok.route
      unfold OnClaimedRoute at hroute ⊢
      cases hphase : claim.phase with
      | claimed =>
        rw [hphase] at hroute
        exact ⟨by simpa only [oldClientCondition, hclient] using hroute.1, hprovider.trans hroute.2⟩
      | committed =>
        rw [hphase] at hroute
        exact ⟨hclient.trans hroute.1, hprovider.trans hroute.2⟩

/-- One more event about a claim that has been minted, which clears no claim that is present. -/
theorem StoreOk.append {store : SwitchStore} (h : StoreOk store) {e : SwitchEvent} (he : NextEvent store.history e)
    (hissued : ∀ id, eventClaim e = some id → id ∈ store.issuedClaims) (hdeleted : e = .deleted → store.row.status = .deleted)
    (hclears : ∀ claim, Holds store.row claim → ¬ clears claim.claimId e) :
    StoreOk { store with history := store.history ++ [e] } where
  history := h.history.append he
  issued e' he' id hid := by
    rcases List.mem_append.mp he' with he' | he'
    · exact h.issued e' he' id hid
    · obtain rfl := List.mem_singleton.mp he'
      exact hissued id hid
  deleted hmem := by
    rcases List.mem_append.mp hmem with hmem | hmem
    · exact h.deleted hmem
    · exact hdeleted (List.mem_singleton.mp hmem).symm
  claim := by
    rcases h.claim with hnone | ⟨claim, hholds, hok⟩
    · exact Or.inl hnone
    · refine Or.inr ⟨claim, hholds, hok.route, hok.inactive, hok.named, List.mem_append_left _ hok.recorded, fun e' he' => ?_⟩
      rcases List.mem_append.mp he' with he' | he'
      · exact hok.uncleared e' he'
      · obtain rfl := List.mem_singleton.mp he'
        exact hclears claim hholds

/-- A claim that is present is the one its conditions name. -/
theorem StoreOk.holds_of_holdsClaim {text : JsonText} {store : SwitchStore} (h : StoreOk store) {id : String}
    {phase : RuntimeSwitchPhase} (hc : holdsClaim text store.row id phase) :
    ∃ claim, Holds store.row claim ∧ claim.claimId = id ∧ claim.phase = phase ∧ ClaimOk store.row store.history claim := by
  rcases h.claim with hnone | ⟨claim, hholds, hok⟩
  · exact absurd hc (not_holdsClaim hnone id phase)
  · obtain ⟨hid, hphase⟩ := (holdsClaim_iff hholds id phase).mp hc
    exact ⟨claim, hholds, hid, hphase, hok⟩

/-! ### The statements of a switch -/

/-- The checks of a switch let through what it may start from. -/
theorem switchable_of_check {current : AgentRow} {input : SwitchAgentRuntimeInput} {u : Unit}
    (h : checkCurrentRuntime current input = .ok u) : Switchable current := by
  unfold checkCurrentRuntime at h
  obtain ⟨_, h⟩ := refuse_bind_ok h
  obtain ⟨_, h⟩ := refuse_bind_ok h
  obtain ⟨hroute, _⟩ := refuse_bind_ok h
  unfold Switchable
  tauto

/-- The read of a switch. -/
theorem ran_switchRead {text : JsonText} {store : SwitchStore} (h : StoreOk store) (fault : Option RuntimeSwitchFault)
    (answers : SwitchAnswers) (input : SwitchAgentRuntimeInput) :
    Ran text store (.switchRead input) (runStatement text store fault answers (.switchRead input)) := by
  refine Ran.skip h fun next hnext => ?_
  unfold afterCheck at hnext
  split at hnext
  · next hcheck =>
    obtain rfl := Option.some.inj hnext
    exact ⟨switchable_of_check hcheck, fun _ hid => hid⟩
  · cases hnext

/-- The checks of a switch mint its claim. -/
theorem ran_switchCheck {text : JsonText} {store : SwitchStore} (h : StoreOk store) (fault : Option RuntimeSwitchFault)
    {answers : SwitchAnswers} (hfresh : answers.claimId ∉ store.issuedClaims) (hnamed : answers.claimId ≠ "")
    {input : SwitchAgentRuntimeInput} {current : AgentRow} (hcurrent : Switchable current) :
    Ran text store (.switchCheck input current) (runStatement text store fault answers (.switchCheck input current)) := by
  simp only [runStatement]
  split
  · refine ⟨⟨h.history, fun e he id hid => List.mem_cons_of_mem _ (h.issued e he id hid), h.deleted, h.claim⟩, fun next hnext => ?_,
      .of_same rfl (fun id hid => List.mem_cons_of_mem _ hid) rfl⟩
    obtain rfl := Option.some.inj hnext
    refine ⟨⟨hcurrent, rfl, rfl, List.mem_cons_self, hnamed, fun e he heq => ?_⟩, fun id hid => Or.inr ?_⟩
    · exact hfresh (h.issued e he _ heq)
    · obtain rfl : answers.claimId = id := hid
      exact hfresh
  · exact Ran.skip h (by simp)

/-- The statement that records a claim. -/
theorem ran_switchClaim {text : JsonText} {store : SwitchStore} (h : StoreOk store) (fault : Option RuntimeSwitchFault)
    (answers : SwitchAnswers) {current : AgentRow} {claim : RuntimeSwitchClaim} (hnext : NextOk store (.switchClaim current claim)) :
    Ran text store (.switchClaim current claim) (runStatement text store fault answers (.switchClaim current claim)) := by
  obtain ⟨hcurrent, hold, hphase, hissued, hnamed, hnew⟩ := hnext
  simp only [runStatement]
  split
  · next row hclaim =>
    obtain ⟨hnone, hroute, hholds, hsuspended, hclient, hprovider, hdeleted⟩ := claim_spec hclaim hcurrent hold
    have habsent : ∀ e ∈ store.history ++ [.claimed claim.claimId (routeOf store.row)], eventClaim e = some claim.claimId →
        e = .claimed claim.claimId (routeOf store.row) := by
      intro e he heq
      rcases List.mem_append.mp he with he | he
      · exact absurd heq (hnew e he)
      · exact List.mem_singleton.mp he
    refine ⟨⟨h.history.append hnew, fun e he id hid => ?_, fun hmem => ?_, Or.inr ⟨claim, hholds, ?_⟩⟩, fun next hn => ?_, ?_⟩
    · rcases List.mem_append.mp he with he | he
      · exact h.issued e he id hid
      · obtain rfl := List.mem_singleton.mp he
        exact Option.some.inj hid ▸ hissued
    · rcases List.mem_append.mp hmem with hmem | hmem
      · exact absurd (h.deleted hmem) hdeleted
      · cases List.mem_singleton.mp hmem
    · refine ⟨?_, fun hactive => ?_, hnamed, hroute ▸ List.mem_append_right _ (List.mem_singleton_self _), fun e he hclears => ?_⟩
      · unfold OnClaimedRoute
        rw [hphase]
        exact ⟨hclient, hprovider⟩
      · cases hsuspended.symm.trans hactive
      · cases e with
        | cleared id =>
          obtain rfl : id = claim.claimId := hclears
          cases habsent _ he rfl
        | aborted id route =>
          obtain rfl : id = claim.claimId := hclears
          cases habsent _ he rfl
        | _ => exact hclears
    · have hrecorded : Recorded (wrote store row [.claimed claim.claimId (routeOf store.row)]) claim := by
        refine ⟨hphase, hroute ▸ List.mem_append_right _ (List.mem_singleton_self _), fun hmem => ?_, fun hmem => ?_, Or.inl hholds⟩
        · cases habsent _ hmem rfl
        · cases habsent _ hmem rfl
      obtain rfl := Option.some.inj hn
      split
      · exact ⟨⟨hrecorded, hnamed⟩, fun id hid => Or.inl hid⟩
      · exact ⟨⟨hrecorded, hnamed⟩, fun id hid => Or.inl hid⟩
    · refine ⟨⟨_, rfl, fun e he => ?_⟩, fun _ hid => hid, fun claim' _ hholds' => ?_, fun claim' _ hholds' => ?_⟩
      · obtain rfl := List.mem_singleton.mp he
        exact ⟨fun id hid => Or.inl (Option.some.inj hid), by simp, by simp⟩
      · cases hnone.symm.trans hholds'
      · cases hnone.symm.trans hholds'
  · exact Ran.skip h (by simp)

/-- The statements after a commit. -/
theorem nextOk_detach {store : SwitchStore} {claim : RuntimeSwitchClaim} (hcommitted : Committed store claim.claimId)
    (hnamed : claim.claimId ≠ "") (fault : Option RuntimeSwitchFault) {next : SwitchStatement}
    (h : detachOldRuntimeAfterCommittedRoute fault claim = some next) : NextOk store next ∧ ∀ id, ¬ ownsClaim id next := by
  unfold detachOldRuntimeAfterCommittedRoute afterDetach at h
  split at h
  · split at h
    · cases h
    · obtain rfl := Option.some.inj h
      exact ⟨hnamed, fun _ hid => hid⟩
  · obtain rfl := Option.some.inj h
    exact ⟨⟨hcommitted, hnamed⟩, fun _ hid => hid⟩

/-- The commit of a switch. -/
theorem ran_switchCommit {text : JsonText} {store : SwitchStore} (h : StoreOk store) (fault : Option RuntimeSwitchFault)
    (answers : SwitchAnswers) {claim : RuntimeSwitchClaim} (hnext : NextOk store (.switchCommit claim)) :
    Ran text store (.switchCommit claim) (runStatement text store fault answers (.switchCommit claim)) := by
  obtain ⟨hrecorded, hnamed⟩ := hnext
  simp only [runStatement]
  split
  · next row hcommit =>
    have hcommit : commitRuntimeSwitch text claim answers.clientAvailable store.row = some row := by
      split at hcommit
      · cases hcommit
      · exact hcommit
    obtain ⟨hc, hholds, hstatus, hsuspended, hclient, hprovider⟩ := commit_spec hcommit
    obtain ⟨present, hpresent, hid, hphase, hok⟩ := h.holds_of_holdsClaim hc
    have hcommitted : Committed (wrote store row [.committed claim.claimId]) claim.claimId := ⟨_, hholds, rfl, rfl⟩
    refine ⟨⟨h.history.append hrecorded.unfailed, fun e he id hid => ?_, fun hmem => ?_, Or.inr ⟨_, hholds, ?_⟩⟩,
      fun next hn => ?_, ?_⟩
    · rcases List.mem_append.mp he with he | he
      · exact h.issued e he id hid
      · obtain rfl := List.mem_singleton.mp he
        exact Option.some.inj hid ▸ h.issued _ hrecorded.recorded _ rfl
    · rcases List.mem_append.mp hmem with hmem | hmem
      · cases hstatus.symm.trans (h.deleted hmem)
      · cases List.mem_singleton.mp hmem
    · refine ⟨⟨hclient, hprovider⟩, fun hactive => ?_, hnamed, List.mem_append_left _ hrecorded.recorded, fun e he hclears => ?_⟩
      · cases hsuspended.symm.trans hactive
      · rcases List.mem_append.mp he with he | he
        · exact hok.uncleared e he (hid ▸ hclears)
        · obtain rfl := List.mem_singleton.mp he
          exact hclears
    · obtain ⟨hok, hnone⟩ := nextOk_detach hcommitted hnamed fault hn
      exact ⟨hok, fun id hid => absurd hid (hnone id)⟩
    · refine ⟨⟨_, rfl, fun e he => ?_⟩, fun _ hid => hid, fun claim' _ hholds' => ?_, fun claim' hphase' hholds' => ?_⟩
      · obtain rfl := List.mem_singleton.mp he
        exact ⟨fun id hid => Or.inl (Option.some.inj hid), fun id hid => SwitchEvent.committed.inj hid, by simp⟩
      · obtain rfl := hpresent.unique hholds'
        exact Or.inr (Or.inl hid.symm)
      · obtain rfl := hpresent.unique hholds'
        cases hphase.symm.trans hphase'
  · refine ⟨h, fun next hn => ?_, .of_same rfl (fun _ hid => hid) rfl⟩
    obtain rfl := Option.some.inj hn
    exact ⟨⟨hrecorded, hnamed⟩, fun id hid => Or.inl hid⟩

/-- An abort that finds its claim restores the route, which is the one of the claim that was present. -/
theorem abort_store {text : JsonText} {store : SwitchStore} (h : StoreOk store) {claim : RuntimeSwitchClaim} {row : AgentRow}
    (habort : abortRuntimeSwitchClaim text claim store.row = some row) (hdeleted : store.row.status ≠ .deleted) :
    StoreOk (wrote store row [.aborted claim.claimId (routeOf row)]) ∧ ∃ present, Holds store.row present ∧
      present.claimId = claim.claimId ∧ present.phase = .claimed ∧ oldRoute present = routeOf row ∧
      .claimed claim.claimId (routeOf row) ∈ store.history := by
  obtain ⟨hc, hclient, hprovider, hnone, hroute⟩ := abort_spec habort
  obtain ⟨present, hpresent, hid, hphase, hok⟩ := h.holds_of_holdsClaim hc
  have hon := hok.route
  unfold OnClaimedRoute at hon
  rw [hphase] at hon
  have heq : oldRoute present = routeOf row := (oldRoute_eq hon.1 hclient hon.2 hprovider).trans hroute.symm
  have hrecorded : .claimed claim.claimId (routeOf row) ∈ store.history := hid ▸ heq ▸ hok.recorded
  refine ⟨⟨h.history.append fun r hr => h.history.once _ _ _ hrecorded hr, fun e he id hid => ?_, fun hmem => ?_, Or.inl hnone⟩,
    present, hpresent, hid, hphase, heq, hrecorded⟩
  · rcases List.mem_append.mp he with he | he
    · exact h.issued e he id hid
    · obtain rfl := List.mem_singleton.mp he
      exact Option.some.inj hid ▸ h.issued _ hrecorded _ rfl
  · rcases List.mem_append.mp hmem with hmem | hmem
    · exact absurd (h.deleted hmem) hdeleted
    · cases List.mem_singleton.mp hmem

/-- What an abort that finds its claim leaves to the other calls, with the events its call writes after it. -/
theorem later_abort {own clear : String → Prop} {store store' : SwitchStore} {claim present : RuntimeSwitchClaim}
    {route : SwitchRoute} {es : List SwitchEvent} (hpresent : Holds store.row present) (hid : present.claimId = claim.claimId)
    (hphase : present.phase = .claimed) (hroute : oldRoute present = route)
    (hhistory : store'.history = store.history ++ .aborted claim.claimId route :: es)
      (hissued : store'.issuedClaims = store.issuedClaims)
    (hrecorded : .claimed claim.claimId route ∈ store.history)
    (hes : ∀ e ∈ es, e = .failed claim.claimId ∧ own claim.claimId) : Later own clear store store' where
  history := by
    refine ⟨_, hhistory, fun e he => ?_⟩
    rcases List.mem_cons.mp he with rfl | he
    · exact ⟨fun id hid => Or.inr ⟨_, hrecorded, hid⟩, by simp, by simp⟩
    · obtain ⟨rfl, hown⟩ := hes e he
      exact ⟨fun id hid => Or.inl (Option.some.inj hid ▸ hown), by simp, fun id hid => SwitchEvent.failed.inj hid ▸ hown⟩
  issued id hmem := hissued ▸ hmem
  claimed claim' _ hholds := by
    obtain rfl := hpresent.unique hholds
    refine Or.inr (Or.inr ?_)
    rw [hhistory, hid, hroute]
    exact List.mem_append_right _ List.mem_cons_self
  committed claim' hphase' hholds := by
    obtain rfl := hpresent.unique hholds
    cases hphase.symm.trans hphase'

/-- The abort of a switch that fails before its commit. -/
theorem ran_switchAbort {text : JsonText} {store : SwitchStore} (h : StoreOk store) (fault : Option RuntimeSwitchFault)
    (answers : SwitchAnswers) {claim : RuntimeSwitchClaim} (hnext : NextOk store (.switchAbort claim))
    (hguard : holdsClaim text store.row claim.claimId .claimed → store.row.status ≠ .deleted) :
    Ran text store (.switchAbort claim) (runStatement text store fault answers (.switchAbort claim)) := by
  obtain ⟨hrecorded, hnamed⟩ := hnext
  have hissued := h.issued _ hrecorded.recorded _ rfl
  simp only [runStatement]
  split
  · next row habort =>
    obtain ⟨hstore, present, hpresent, hid, hphase, hroute, hclaimed⟩ := abort_store h habort (hguard (abort_spec habort).1)
    have hfailed : NextEvent (wrote store row [.aborted claim.claimId (routeOf row)]).history (.failed claim.claimId) := by
      refine ⟨fun hmem => ?_, routeOf row, List.mem_append_left _ hclaimed, List.mem_append_right _ (List.mem_singleton_self _)⟩
      rcases List.mem_append.mp hmem with hmem | hmem
      · exact hrecorded.uncommitted hmem
      · cases List.mem_singleton.mp hmem
    have happend := hstore.append hfailed (fun id hid => Option.some.inj hid ▸ hissued) (by simp) fun _ _ hclears => hclears
    refine ⟨by simpa [wrote] using happend, by simp, later_abort hpresent hid hphase hroute rfl rfl hclaimed fun e he => ?_⟩
    exact ⟨List.mem_singleton.mp he, rfl⟩
  · next hnone =>
    -- The claim is gone, so another call has aborted it.
    have haborted : .aborted claim.claimId (oldRoute claim) ∈ store.history := by
      refine hrecorded.present.resolve_left fun hholds => ?_
      obtain ⟨present, hpresent, hok⟩ := h.claim.resolve_left (by rw [hholds]; simp)
      obtain rfl := hholds.unique hpresent
      have hsome : (abortRuntimeSwitchClaim text claim store.row).isSome = true := abort_isSome hholds hrecorded.phase hok.route
      rw [hnone] at hsome
      cases hsome
    have happend := h.append (e := .failed claim.claimId) ⟨hrecorded.uncommitted, _, hrecorded.recorded, haborted⟩
      (fun id hid => Option.some.inj hid ▸ hissued) (by simp) fun _ _ hclears => hclears
    refine ⟨happend, by simp, ⟨_, rfl,
      fun e he => ?_⟩, fun _ hid => hid, fun _ _ hholds => Or.inl hholds, fun _ _ hholds => Or.inl hholds⟩
    obtain rfl := List.mem_singleton.mp he
    exact ⟨fun id hid => Or.inl (Option.some.inj hid), by simp, fun id hid => SwitchEvent.failed.inj hid⟩

/-! ### The statements after a commit -/

/-- A detach, under its committed claim. -/
theorem StoreOk.detach {store : SwitchStore} (h : StoreOk store) {id : String} (hcommitted : Committed store id) {e : SwitchEvent}
    (he : detaches id e) (hclaim : eventClaim e = some id) : StoreOk { store with history := store.history ++ [e] } := by
  obtain ⟨claim, hholds, rfl, _⟩ := hcommitted
  obtain ⟨present, hpresent, hok⟩ := h.claim.resolve_left (by rw [hholds]; simp)
  obtain rfl := hholds.unique hpresent
  refine h.append ?_ (fun id hid => ?_) (fun heq => ?_) fun claim' _ hclears => ?_
  · cases e with
    | disconnected id => exact Option.some.inj hclaim ▸ hok.uncleared
    | offline id => exact Option.some.inj hclaim ▸ hok.uncleared
    | evicted id => exact Option.some.inj hclaim ▸ hok.uncleared
    | _ => exact absurd he (fun hd => hd)
  · exact h.issued _ hok.recorded _ (hclaim.symm.trans hid ▸ rfl)
  · rw [heq] at hclaim
    cases hclaim
  · cases e with
    | cleared id => exact he
    | aborted id route => exact he
    | _ => exact hclears

/-- What a detach leaves to the other calls. -/
theorem later_detach {own clear : String → Prop} {store store' : SwitchStore} {id : String} (hcommitted : Committed store id)
    (h : StoreOk store) {e : SwitchEvent} (he : detaches id e) (hclaim : eventClaim e = some id)
    (hhistory : store'.history = store.history ++ [e]) (hrow : store'.row = store.row)
    (hissued : store'.issuedClaims = store.issuedClaims) : Later own clear store store' where
  history := by
    obtain ⟨claim, hholds, rfl, _⟩ := hcommitted
    obtain ⟨present, hpresent, hok⟩ := h.claim.resolve_left (by rw [hholds]; simp)
    obtain rfl := hholds.unique hpresent
    refine ⟨_, hhistory, fun e' he' => ?_⟩
    obtain rfl := List.mem_singleton.mp he'
    refine ⟨fun id hid => Or.inr ⟨_, hok.recorded, hclaim.symm.trans hid ▸ rfl⟩, fun id heq => ?_, fun id heq => ?_⟩
    · rw [heq] at he
      exact absurd he fun hd => hd
    · rw [heq] at he
      exact absurd he fun hd => hd
  issued _ hid := hissued ▸ hid
  claimed _ _ hholds := Or.inl (hrow ▸ hholds)
  committed _ _ hholds := Or.inl (hrow ▸ hholds)

/-- The revoke of a detach. -/
theorem ran_detachRevoke {text : JsonText} {store : SwitchStore} (h : StoreOk store) (fault : Option RuntimeSwitchFault)
    (answers : SwitchAnswers) {claim : RuntimeSwitchClaim} (hnext : NextOk store (.detachRevoke claim)) :
    Ran text store (.detachRevoke claim) (runStatement text store fault answers (.detachRevoke claim)) := by
  obtain ⟨⟨present, hpresent, hid, hphase⟩, hnamed⟩ := hnext
  obtain ⟨hroute, hclaim⟩ := revoke_spec store.row (some claim.oldClientId)
  have hstatus := congrArg SwitchRoute.status hroute
  refine ⟨h.write (congrArg SwitchRoute.clientId hroute) (congrArg SwitchRoute.runtimeProvider hroute) hclaim ?_ hstatus.trans,
    fun next hn => ?_, .of_same rfl (fun _ hid => hid) hclaim⟩
  · exact fun _ hne heq => hne (hstatus.symm.trans heq)
  · obtain rfl := Option.some.inj hn
    exact ⟨⟨⟨present, hclaim.trans hpresent, hid, hphase⟩, hnamed⟩, fun _ hid => absurd hid fun hd => hd⟩

/-- The disconnect of a detach. -/
theorem ran_detachDisconnect {text : JsonText} {store : SwitchStore} (h : StoreOk store) (fault : Option RuntimeSwitchFault)
    (answers : SwitchAnswers) {claim : RuntimeSwitchClaim} (hnext : NextOk store (.detachDisconnect claim)) :
    Ran text store (.detachDisconnect claim) (runStatement text store fault answers (.detachDisconnect claim)) := by
  obtain ⟨hcommitted, hnamed⟩ := hnext
  simp only [runStatement]
  split
  · have hdetach := h.detach hcommitted (e := .disconnected claim.claimId) rfl rfl
    refine ⟨⟨hdetach.history, hdetach.issued, hdetach.deleted, hdetach.claim⟩, fun next hn => ?_,
      later_detach hcommitted h (e := .disconnected claim.claimId) rfl rfl rfl rfl rfl⟩
    obtain rfl := Option.some.inj hn
    exact ⟨⟨hcommitted, hnamed⟩, fun _ hid => absurd hid fun hd => hd⟩
  · refine Ran.skip h fun next hn => ?_
    obtain rfl := Option.some.inj hn
    exact ⟨⟨hcommitted, hnamed⟩, fun _ hid => hid⟩

/-- The end of a detach. -/
theorem ran_detachOffline {text : JsonText} {store : SwitchStore} (h : StoreOk store) (fault : Option RuntimeSwitchFault)
    (answers : SwitchAnswers) {claim : RuntimeSwitchClaim} (hnext : NextOk store (.detachOffline claim)) :
    Ran text store (.detachOffline claim) (runStatement text store fault answers (.detachOffline claim)) := by
  obtain ⟨hcommitted, hnamed⟩ := hnext
  have hdetach := h.detach hcommitted (e := .offline claim.claimId) rfl rfl
  refine ⟨⟨hdetach.history, hdetach.issued, hdetach.deleted, hdetach.claim⟩, fun next hn => ?_,
    later_detach hcommitted h (e := .offline claim.claimId) rfl rfl rfl rfl rfl⟩
  simp only [runStatement, afterDetach] at hn
  split at hn
  · cases hn
  · obtain rfl := Option.some.inj hn
    exact ⟨hnamed, fun _ hid => absurd hid fun hd => hd⟩

/-- The archive of the sessions, under its committed claim. -/
theorem ran_archiveSessions {text : JsonText} {store : SwitchStore} (h : StoreOk store) (fault : Option RuntimeSwitchFault)
    (answers : SwitchAnswers) {claim : RuntimeSwitchClaim} (hnamed : claim.claimId ≠ "") :
    Ran text store (.archiveSessions claim) (runStatement text store fault answers (.archiveSessions claim)) := by
  simp only [runStatement]
  split
  · next hallowed =>
    obtain ⟨present, hpresent, hid, hphase, _⟩ := h.holds_of_holdsClaim (hallowed.resolve_left hnamed)
    have hcommitted : Committed store claim.claimId := ⟨present, hpresent, hid, hphase⟩
    have hdetach := h.detach hcommitted (e := .evicted claim.claimId) rfl rfl
    refine ⟨⟨hdetach.history, hdetach.issued, hdetach.deleted, hdetach.claim⟩, fun next hn => ?_,
      later_detach hcommitted h (e := .evicted claim.claimId) rfl rfl rfl rfl rfl⟩
    dsimp only at hn
    split at hn
    · cases hn
    · obtain rfl := Option.some.inj hn
      exact ⟨hnamed, fun _ hid => absurd hid fun hd => hd⟩
  · exact Ran.skip h (by simp)

/-- The reactivation that clears a claim. -/
theorem ran_reactivateClaim {text : JsonText} {store : SwitchStore} (h : StoreOk store) (fault : Option RuntimeSwitchFault)
    (answers : SwitchAnswers) (claim : RuntimeSwitchClaim) :
    Ran text store (.reactivateClaim claim) (runStatement text store fault answers (.reactivateClaim claim)) := by
  simp only [runStatement]
  split
  · next row hreactivate =>
    obtain ⟨hc, hnone, hstatus⟩ := reactivate_spec hreactivate
    obtain ⟨present, hpresent, hid, hphase, hok⟩ := h.holds_of_holdsClaim hc
    refine ⟨⟨h.history.append trivial, fun e he id hid' => ?_, fun hmem => ?_, Or.inl hnone⟩, by simp, ⟨_, rfl, fun e he => ?_⟩,
      fun _ hid => hid, fun claim' hphase' hholds => ?_, fun claim' _ hholds => ?_⟩
    · rcases List.mem_append.mp he with he | he
      · exact h.issued e he id hid'
      · obtain rfl := List.mem_singleton.mp he
        exact h.issued _ hok.recorded _ (hid.trans (Option.some.inj hid') ▸ rfl)
    · rcases List.mem_append.mp hmem with hmem | hmem
      · cases hstatus.symm.trans (h.deleted hmem)
      · cases List.mem_singleton.mp hmem
    · obtain rfl := List.mem_singleton.mp he
      exact ⟨fun id hid' => Or.inr ⟨_, hok.recorded, hid.trans (Option.some.inj hid') ▸ rfl⟩, by simp, by simp⟩
    · obtain rfl := hpresent.unique hholds
      cases hphase.symm.trans hphase'
    · obtain rfl := hpresent.unique hholds
      exact Or.inr ⟨claim, rfl, hid.symm, hid ▸ hc⟩
  · exact Ran.skip h (by simp)

/-! ### The statements of a recovery -/

/-- The read of a recovery: it holds the claim that is present. -/
theorem ran_recoverRead {text : JsonText} {store : SwitchStore} (h : StoreOk store) (fault : Option RuntimeSwitchFault)
    (answers : SwitchAnswers) : Ran text store .recoverRead (runStatement text store fault answers .recoverRead) := by
  simp only [runStatement]
  split
  · next claim hread =>
    have hclaim : getRuntimeSwitchClaim store.row.metadata = some claim := by
      unfold readRecoveryClaim at hread
      obtain ⟨_, hread⟩ := refuse_bind_ok hread
      obtain ⟨_, hread⟩ := refuse_bind_ok hread
      split at hread
      · next read heq => exact heq.trans (congrArg some (Except.ok.inj hread))
      · cases hread
    have hpresent : store.row.metadata.lookup runtimeSwitchKey ≠ none := by
      intro hnone
      rw [getRuntimeSwitchClaim, hnone] at hclaim
      cases hclaim
    obtain ⟨present, hholds, hok⟩ := h.claim.resolve_left hpresent
    obtain rfl := Option.some.inj ((getRuntimeSwitchClaim_toJson hholds).symm.trans hclaim)
    refine Ran.skip h fun next hn => ?_
    cases hphase : present.phase with
    | claimed =>
      rw [hphase] at hn
      obtain rfl := Option.some.inj hn
      exact ⟨trivial, fun _ hid => hid⟩
    | committed =>
      rw [hphase] at hn
      exact nextOk_detach ⟨present, hholds, rfl, hphase⟩ hok.named fault hn
  · exact Ran.skip h (by simp)

/-- The abort of a recovery. -/
theorem ran_recoverAbort {text : JsonText} {store : SwitchStore} (h : StoreOk store) (fault : Option RuntimeSwitchFault)
    (answers : SwitchAnswers) {claim : RuntimeSwitchClaim}
    (hguard : holdsClaim text store.row claim.claimId .claimed → store.row.status ≠ .deleted) :
    Ran text store (.recoverAbort claim) (runStatement text store fault answers (.recoverAbort claim)) := by
  simp only [runStatement]
  split
  · next row habort =>
    obtain ⟨hstore, present, hpresent, hid, hphase, hroute, hclaimed⟩ := abort_store h habort (hguard (abort_spec habort).1)
    exact ⟨hstore, by simp, later_abort hpresent hid hphase hroute rfl rfl hclaimed (by simp)⟩
  · exact Ran.skip h (by simp)

/-! ### The lifecycle calls -/

/-- A lifecycle call goes on to a write that rests on nothing. -/
theorem ran_check {text : JsonText} {store : SwitchStore} (h : StoreOk store) {next : SwitchStatement} (write : SwitchStatement)
    (hwrite : NextOk store write ∧ ∀ id, ¬ ownsClaim id write) (check : Except ServiceError Unit) :
    Ran text store next (store, afterCheck write check) := by
  refine Ran.skip h fun n hn => ?_
  cases check with
  | ok _ => exact Option.some.inj hn ▸ hwrite
  | error _ => cases hn

/-- A write of a status that no claim and no deletion forbids. -/
theorem ran_write {text : JsonText} {store : SwitchStore} (h : StoreOk store) {next : SwitchStatement} {status : AgentStatus}
    (hinactive : (∃ claim, Holds store.row claim) → status ≠ .active) (hdeleted : store.row.status = .deleted → status = .deleted) :
    Ran text store next (wrote store (writeStatus status store.row) [], none) := by
  have hsame : wrote store (writeStatus status store.row) [] = { store with row := writeStatus status store.row } := by
    rw [wrote, List.append_nil]
  rw [hsame]
  exact ⟨h.write rfl rfl rfl (fun hc _ => hinactive hc) hdeleted, by simp, .of_same rfl (fun _ hid => hid) rfl⟩

/-- The write of a deletion. -/
theorem ran_deleteWrite {text : JsonText} {store : SwitchStore} (h : StoreOk store) :
    Ran text store .deleteWrite (wrote store (writeStatus .deleted store.row) [.deleted], none) := by
  have hwrite : StoreOk { store with row := writeStatus .deleted store.row } :=
    h.write rfl rfl rfl (fun _ _ => by simp [writeStatus]) fun _ => rfl
  refine ⟨hwrite.append (e := .deleted) trivial (by simp [eventClaim]) (fun _ => rfl) fun _ _ hclears => hclears, by simp,
    ⟨_, rfl, fun e he => ?_⟩, fun _ hid => hid, fun _ _ hholds => Or.inl hholds, fun _ _ hholds => Or.inl hholds⟩
  obtain rfl := List.mem_singleton.mp he
  exact ⟨by simp [eventClaim], by simp, by simp⟩

/-! ## One step -/

/-- What the guard says of the statement that runs. -/
def StatementInTime (text : JsonText) (store : SwitchStore) : SwitchStatement → Prop
  | .suspendWrite => store.row.status ≠ .deleted
  | .reactivateWrite => store.row.status ≠ .deleted ∧ store.row.metadata.lookup runtimeSwitchKey = none
  | .switchAbort claim => holdsClaim text store.row claim.claimId .claimed → store.row.status ≠ .deleted
  | .recoverAbort claim => holdsClaim text store.row claim.claimId .claimed → store.row.status ≠ .deleted
  | _ => True

/-- A statement in time keeps what holds of the store and its call. -/
theorem ran_statement {text : JsonText} {store : SwitchStore} (h : StoreOk store) (fault : Option RuntimeSwitchFault)
    {answers : SwitchAnswers} (hfresh : answers.claimId ∉ store.issuedClaims) (hnamed : answers.claimId ≠ "") {next : SwitchStatement}
    (hnext : NextOk store next) (hguard : StatementInTime text store next) :
    Ran text store next (runStatement text store fault answers next) := by
  cases next with
  | switchRead input => exact ran_switchRead h fault answers input
  | switchCheck input current => exact ran_switchCheck h fault hfresh hnamed hnext
  | switchClaim current claim => exact ran_switchClaim h fault answers hnext
  | switchCommit claim => exact ran_switchCommit h fault answers hnext
  | switchAbort claim => exact ran_switchAbort h fault answers hnext hguard
  | detachRevoke claim => exact ran_detachRevoke h fault answers hnext
  | detachDisconnect claim => exact ran_detachDisconnect h fault answers hnext
  | detachOffline claim => exact ran_detachOffline h fault answers hnext
  | archiveSessions claim => exact ran_archiveSessions h fault answers hnext
  | reactivateClaim claim => exact ran_reactivateClaim h fault answers claim
  | recoverRead => exact ran_recoverRead h fault answers
  | recoverAbort claim => exact ran_recoverAbort h fault answers hguard
  | suspendRead => exact ran_check h .suspendWrite ⟨trivial, fun _ hid => hid⟩ _
  | suspendWrite => exact ran_write h (fun _ => by simp) fun hdeleted => absurd hdeleted hguard
  | reactivateRead => exact ran_check h .reactivateWrite ⟨trivial, fun _ hid => hid⟩ _
  | reactivateWrite =>
    refine ran_write h (fun hc => ?_) fun hdeleted => absurd hdeleted hguard.1
    obtain ⟨claim, hholds⟩ := hc
    cases hguard.2.symm.trans hholds
  | deleteRead => exact ran_check h .deleteWrite ⟨trivial, fun _ hid => hid⟩ _
  | deleteWrite => exact ran_deleteWrite h

/-- A claim that is owned has been minted. -/
theorem issued_of_owns {store : SwitchStore} (h : StoreOk store) {next : SwitchStatement} (hnext : NextOk store next) {id : String}
    (hid : ownsClaim id next) : id ∈ store.issuedClaims := by
  cases next with
  | switchClaim current claim =>
    obtain rfl : claim.claimId = id := hid
    exact hnext.2.2.2.1
  | switchCommit claim =>
    obtain rfl : claim.claimId = id := hid
    exact h.issued _ hnext.1.recorded _ rfl
  | switchAbort claim =>
    obtain rfl : claim.claimId = id := hid
    exact h.issued _ hnext.1.recorded _ rfl
  | _ => exact absurd hid fun hd => hd

/-- A step of one call keeps the invariant. -/
theorem sound_run {text : JsonText} {s : SwitchSystem Call} (h : Sound s) {call : Call} {open_ : SwitchCall}
    (hfind : s.find call = some open_) {ran : SwitchStore × Option SwitchStatement} (hran : Ran text s.store open_.next ran)
    (hclear : ∀ other ∈ s.others call, ∀ id, detachPending id other.next → ¬ clearing text s.store open_.next id) :
    Sound (s.put ran.1 call (ran.2.map fun next => ⟨next, open_.fault⟩)) := by
  have hapart : ∀ other ∈ s.others call, Exclusive (fun c : SwitchCall => fun id => ownsClaim id c.next) open_ other ∧
      NextOk s.store other.next := by
    intro other hother
    obtain ⟨k, hne, hk⟩ := System.mem_others.mp hother
    exact ⟨h.apart call k open_ other (Ne.symm hne) hfind hk, h.own k other hk⟩
  refine h.put (fun _ _ hexcl => hexcl.symm) hran.sound (fun next hn => ?_) (fun other hother hnext => ?_)
    fun next hn other hother => ?_
  · obtain ⟨n, hgoes, rfl⟩ := Option.map_eq_some_iff.mp hn
    exact (hran.goesOn n hgoes).1
  · exact hnext.later hran.later (fun id hid hown => (hapart other hother).1 id hown hid) (hclear other hother)
  · obtain ⟨n, hgoes, rfl⟩ := Option.map_eq_some_iff.mp hn
    intro id hid hother'
    rcases (hran.goesOn n hgoes).2 id hid with hmine | hfresh
    · exact (hapart other hother).1 id hmine hother'
    · exact hfresh (issued_of_owns h.store (hapart other hother).2 hother')

/-- A call begins with nothing read. -/
theorem sound_begin {s s' : SwitchSystem Call} (h : Sound s) {call : Call} {next : SwitchStatement}
    {fault : Option RuntimeSwitchFault}
    (hstep : begin s call next fault = some s') (hnext : NextOk s.store next) (howns : ∀ id, ¬ ownsClaim id next) : Sound s' := by
  unfold begin at hstep
  split at hstep
  · obtain rfl := Option.some.inj hstep
    refine h.put (fun _ _ hexcl => hexcl.symm) h.store (fun c hc => ?_) (fun _ _ hok => hok) fun c hc other _ id hid => ?_
    · exact Option.some.inj hc ▸ hnext
    · obtain rfl := Option.some.inj hc
      exact absurd hid (howns id)
  · cases hstep

/-- A change beside the row and the history keeps the invariant. -/
theorem sound_outside {s : SwitchSystem Call} (h : Sound s) (liveClient : Option String) (online : Bool)
    (openSessions : List String) :
    Sound { s with store := { s.store with liveClient := liveClient, online := online, openSessions := openSessions } } := by
  refine h.setStore ⟨h.store.history, h.store.issued, h.store.deleted, h.store.claim⟩ fun k c hfind hnext => ?_
  have hl : Later (fun _ => False) (fun _ => False) s.store
      { s.store with liveClient := liveClient, online := online, openSessions := openSessions } := .of_same rfl (fun _ hid => hid) rfl
  exact hnext.later hl (fun _ _ hown => hown) fun _ _ hclear => hclear

/-- A step in time keeps the invariant. -/
theorem sound_step {text : JsonText} {s s' : SwitchSystem Call} {op : SwitchOp Call} (h : Sound s) (hguard : ComesInTime text s op)
    (hstep : step text s op = some s') : Sound s' := by
  cases op with
  | switchAgentRuntime call input fault => exact sound_begin h hstep trivial fun _ hid => hid
  | recoverAgentRuntimeSwitch call fault => exact sound_begin h hstep trivial fun _ hid => hid
  | suspendAgent call => exact sound_begin h hstep trivial fun _ hid => hid
  | reactivateAgent call => exact sound_begin h hstep trivial fun _ hid => hid
  | deleteAgent call => exact sound_begin h hstep trivial fun _ hid => hid
  | run call answers =>
    obtain ⟨open_, hfind, hstep⟩ := Option.bind_eq_some_iff.mp hstep
    split at hstep
    · cases hstep
    · next hfresh =>
      obtain ⟨hfresh, hnamed⟩ := not_or.mp hfresh
      obtain rfl := Option.some.inj hstep
      have hintime := hguard open_ hfind
      have hstatement : StatementInTime text s.store open_.next := by
        cases hn : open_.next <;> simp only [hn] at hintime <;> first | exact hintime | exact trivial
      refine sound_run h hfind (ran_statement h.store open_.fault hfresh hnamed (h.own call open_ hfind) hstatement) ?_
      rintro other hother id hpending ⟨claim, hn, rfl, hc⟩
      simp only [hn] at hintime
      exact hintime hc other hother hpending
  | crash call =>
    obtain ⟨open_, _, rfl⟩ := Option.map_eq_some_iff.mp hstep
    exact h.put (fun _ _ hexcl => hexcl.symm) h.store (by simp) (fun _ _ hok => hok) (by simp)
  | connects clientId => exact Option.some.inj hstep ▸ sound_outside h _ _ _
  | disconnects => exact Option.some.inj hstep ▸ sound_outside h _ _ _
  | sessionStarts chatId => exact Option.some.inj hstep ▸ sound_outside h _ _ _

/-- Where the invariant holds the state is safe. -/
theorem StoreOk.safe {store : SwitchStore} (h : StoreOk store) : SwitchSafe store where
  present hp := by
    obtain ⟨claim, hholds, _⟩ := h.claim.resolve_left hp
    exact ⟨claim, getRuntimeSwitchClaim_toJson hholds⟩
  inactive hp := by
    obtain ⟨_, _, hok⟩ := h.claim.resolve_left hp
    exact hok.inactive
  route claim hclaim := by
    rcases h.claim with hnone | ⟨present, hholds, hok⟩
    · rw [getRuntimeSwitchClaim, hnone] at hclaim
      cases hclaim
    · obtain rfl := Option.some.inj ((getRuntimeSwitchClaim_toJson hholds).symm.trans hclaim)
      exact hok.route
  deleted := h.deleted
  restored := h.history.restored
  failed := h.history.failed
  cleared := h.history.cleared

end RuntimeSwitchAux

open RuntimeSwitchAux

/-! ## The result -/

/-- In every run whose statements come in time every state is safe. -/
theorem runtime_switch_safe (text : JsonText) :
    AlwaysSafe (Guarded (ComesInTime text) (ofPartial fun s : SwitchSystem Call => RuntimeSwitch.step text s)) := by
  intro store hnone hhistory ops s h
  have hstore : StoreOk store := by
    refine ⟨⟨?_, ?_, ?_, ?_⟩, ?_, ?_, Or.inl hnone⟩ <;> simp [hhistory]
  have hsound : Sound s := h.invariant (fun s op s' hs hstep => sound_step hs hstep.1 hstep.2) (Invariant.idle hstore)
  exact hsound.store.safe

namespace RuntimeSwitchExample

/-- Only strings have a text. -/
def strings : JsonText := ⟨Json.string?, Json.string?_str⟩

/-- An active agent on the client `a`, connected through it. -/
def store : SwitchStore :=
  { row := { uuid := "g", isHuman := false, status := .active, clientId := some "a", runtimeProvider := "codex", managerId := "m"
             metadata := ∅ }
    liveClient := some "a", online := true, openSessions := [], issuedClaims := [], history := [] }

/-- The target `b` is there and belongs to the manager. -/
def answers (claimId : String) : SwitchAnswers :=
  { reads := ⟨some ("u", "active"), some ⟨some "u", false, true⟩, true, .ok ()⟩, claimId := claimId, claimedAt := ""
    clientAvailable := true, transactionFails := false }

/-- A switch records its claim, and the suspended agent is reactivated. -/
def reactivatedUnderClaim : List (SwitchOp Nat) :=
  [.switchAgentRuntime 0 ⟨"b", "codex", "u", "m"⟩ none, .run 0 (answers "1"), .run 0 (answers "1"), .run 0 (answers "2"),
    .reactivateAgent 1, .run 1 (answers "3"), .run 1 (answers "4")]

end RuntimeSwitchExample

open RuntimeSwitchExample in
/-- The agent is active while the claim is present. -/
theorem runtime_switch_reactivated : ¬ AlwaysSafe (ofPartial fun s : SwitchSystem Nat => RuntimeSwitch.step strings s) := by
  intro h
  have hout : (reactivatedUnderClaim.foldlM (RuntimeSwitch.step strings) (.idle store)).map
      (fun s => ((s.store.row.metadata.lookup runtimeSwitchKey).isSome, s.store.row.status)) = some (true, .active) := by
    decide
  obtain ⟨s, hs, heq⟩ := Option.map_eq_some_iff.mp hout
  obtain ⟨hclaim, hstatus⟩ := Prod.mk.inj heq
  have hsafe := h store rfl rfl reactivatedUnderClaim s (Run.of_foldlM hs)
  exact hsafe.inactive (Option.isSome_iff_ne_none.mp hclaim) hstatus

end FirstTree
