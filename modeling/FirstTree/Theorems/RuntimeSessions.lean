import FirstTree.Lib.Runs
import FirstTree.Server.RuntimeSessions

/-!
# The fencing of runtime session proofs

A proof is read only while the agent's client is the one it was minted for. A switch that leaves that client revokes with the old
client as expected client, and finds the row at the target: the proof stays. It is dead as long as no switch returns the agent to
its client before the next bind.
-/

namespace FirstTree

open Runs AgentRuntime RuntimeSessions

namespace RuntimeSessions

/-- A proof that validates is that of the most recent bind, with no effective revoke and no committed switch since, so a token from
before a switch is not accepted again. -/
structure ProofsFenced (hash : TokenHash) (s : ProofLog) : Prop where
  current : ∀ clientId token clientAvailable, validateAgentRuntimeSession hash s.row clientId token clientAvailable = true →
    s.history.getLast? = some (.bound clientId token)
  fenced : ∀ before after token, s.history = before ++ ProofEvent.switched :: after →
    (∀ clientId, ProofEvent.bound clientId token ∉ after) →
    ∀ clientId clientAvailable, validateAgentRuntimeSession hash s.row clientId token clientAvailable = false

/-- In every run from a row without a proof the proofs are fenced. -/
def AlwaysFenced (hash : TokenHash) (steps : ProofLog → ProofOp → ProofLog → Prop) : Prop :=
  ∀ row, row.metadata.lookup runtimeSessionKey = none → ∀ ops s, Run steps ⟨row, []⟩ ops s → ProofsFenced hash s

/-- A switch that commits moves the agent to the client its stored proof was minted for only when it is already there. -/
def LeavesProofBehind (text : JsonText) (s : ProofLog) : ProofOp → Prop
  | .commitRuntimeSwitch claim clientAvailable => ∀ row, commitRuntimeSwitch text claim clientAvailable s.row = some row →
      ∀ binding, getAgentRuntimeSessionMetadata s.row.metadata = some binding → row.clientId = some binding.clientId →
      s.row.clientId = some binding.clientId
  | _ => True

end RuntimeSessions

namespace RuntimeSessionsAux

/-! ## The stored proof -/

/-- A stored proof is read back. -/
theorem getAgentRuntimeSessionMetadata_toJson {metadata : Metadata} {binding : AgentRuntimeSessionMetadata}
    (h : metadata.lookup runtimeSessionKey = some (AgentRuntimeSessionMetadata.toJson binding)) :
    getAgentRuntimeSessionMetadata metadata = some binding := by
  simp [getAgentRuntimeSessionMetadata, h, AgentRuntimeSessionMetadata.toJson, Json.field?, Json.string?]

/-- The stored proof is the one of the last event, or of another client than the agent's. -/
def ProofOk (hash : TokenHash) (row : AgentRow) (history : List ProofEvent) : Prop :=
  row.metadata.lookup runtimeSessionKey = none ∨ ∃ clientId token boundAt,
    row.metadata.lookup runtimeSessionKey = some (AgentRuntimeSessionMetadata.toJson ⟨clientId, hash.hash token, boundAt⟩) ∧
    (row.clientId = some clientId → history.getLast? = some (.bound clientId token))

/-- The invariant of the log. -/
def Sound (hash : TokenHash) (s : ProofLog) : Prop := ProofOk hash s.row s.history

/-- A row with the same client and the same proof. -/
theorem ProofOk.congr {hash : TokenHash} {row row' : AgentRow} {history : List ProofEvent} (h : ProofOk hash row history)
    (hclient : row'.clientId = row.clientId)
    (hproof : row'.metadata.lookup runtimeSessionKey = row.metadata.lookup runtimeSessionKey) : ProofOk hash row' history := by
  unfold ProofOk
  rw [hclient, hproof]
  exact h

/-- The claim of a switch is stored under another key. -/
theorem lookup_session_insert_switch (metadata : Metadata) (value : Json) :
    (metadata.insert runtimeSwitchKey value).lookup runtimeSessionKey = metadata.lookup runtimeSessionKey :=
  AList.lookup_insert_ne (by decide)

/-- The claim of a switch is erased from another key. -/
theorem lookup_session_erase_switch (metadata : Metadata) :
    (metadata.erase runtimeSwitchKey).lookup runtimeSessionKey = metadata.lookup runtimeSessionKey :=
  AList.lookup_erase_ne (by decide)

/-! ## One step -/

/-- An update that keeps the client and the proof keeps the invariant. -/
theorem Sound.updated {hash : TokenHash} {s : ProofLog} (h : Sound hash s) {row : Option AgentRow}
    (hrow : ∀ row', row = some row' → row'.clientId = s.row.clientId ∧
      row'.metadata.lookup runtimeSessionKey = s.row.metadata.lookup runtimeSessionKey) : Sound hash (updated s [] row) := by
  cases row with
  | none => exact h
  | some row' =>
    obtain ⟨hclient, hproof⟩ := hrow row' rfl
    have hsame : ProofOk hash row' s.history := h.congr hclient hproof
    simpa [RuntimeSessions.updated, Sound] using hsame

/-- An update that removes the proof keeps the invariant. -/
theorem Sound.removed {hash : TokenHash} {s : ProofLog} (h : Sound hash s) (event : List ProofEvent) {row : Option AgentRow}
    (hrow : ∀ row', row = some row' → row'.metadata.lookup runtimeSessionKey = none) :
    Sound hash (RuntimeSessions.updated s event row) := by
  cases row with
  | none => exact h
  | some row' => exact Or.inl (hrow row' rfl)

/-- A lifecycle call keeps the invariant. -/
theorem Sound.written {hash : TokenHash} {s : ProofLog} (h : Sound hash s) (status : AgentStatus) (check : Except ServiceError Unit) :
    Sound hash (written s status check) := by
  cases check with
  | ok _ => exact h.congr rfl rfl
  | error _ => exact h

/-- A revoke that finds its row removes the proof. -/
theorem revoke_removes {row row' : AgentRow} {expected : Option String} (h : revokeAgentRuntimeSession row expected = some row') :
    row'.clientId = row.clientId ∧ row'.metadata.lookup runtimeSessionKey = none := by
  unfold revokeAgentRuntimeSession at h
  split at h
  · obtain rfl := Option.some.inj h
    exact ⟨rfl, AList.lookup_erase _ _⟩
  · cases h

/-- The revoke of a switch keeps the client, and removes the proof when the agent is still at the old client. -/
theorem detachOldRuntime_spec (claim : RuntimeSwitchClaim) (row : AgentRow) :
    (detachOldRuntime claim row).clientId = row.clientId ∧
      ((detachOldRuntime claim row).metadata.lookup runtimeSessionKey = none ∨
        (row.clientId ≠ some claim.oldClientId ∨ claim.oldClientId = "") ∧ detachOldRuntime claim row = row) := by
  unfold detachOldRuntime
  by_cases hold : claim.oldClientId = ""
  · rw [if_pos hold]
    exact ⟨rfl, Or.inr ⟨Or.inr hold, rfl⟩⟩
  · rw [if_neg hold]
    cases hrevoke : revokeAgentRuntimeSession row (some claim.oldClientId) with
    | none =>
      refine ⟨rfl, Or.inr ⟨Or.inl fun hclient => ?_, rfl⟩⟩
      rw [revokeAgentRuntimeSession, if_pos (Or.inr hclient)] at hrevoke
      cases hrevoke
    | some row' =>
      obtain ⟨hclient, hproof⟩ := revoke_removes hrevoke
      exact ⟨hclient, Or.inl hproof⟩

/-- A commit finds the agent at the old client, moves it to the target and keeps the proof. -/
theorem commit_spec {text : JsonText} {claim : RuntimeSwitchClaim} {clientAvailable : Bool} {row row' : AgentRow}
    (h : commitRuntimeSwitch text claim clientAvailable row = some row') :
    oldClientCondition row claim.oldClientId ∧ row'.clientId = some claim.targetClientId ∧
      row'.metadata.lookup runtimeSessionKey = row.metadata.lookup runtimeSessionKey := by
  unfold commitRuntimeSwitch at h
  split at h
  · next hwhere =>
    obtain rfl := Option.some.inj h
    exact ⟨hwhere.2.1, rfl, lookup_session_insert_switch _ _⟩
  · cases h

/-- A switch that leaves the proof behind keeps the invariant. -/
theorem sound_commit {text : JsonText} {hash : TokenHash} {s : ProofLog} (h : Sound hash s) {claim : RuntimeSwitchClaim}
    {clientAvailable : Bool} (hguard : LeavesProofBehind text s (.commitRuntimeSwitch claim clientAvailable)) :
    Sound hash (updated s [.switched] ((commitRuntimeSwitch text claim clientAvailable s.row).map (detachOldRuntime claim))) := by
  cases hcommit : commitRuntimeSwitch text claim clientAvailable s.row with
  | none => exact h
  | some row =>
    have hmoves := hguard row hcommit
    obtain ⟨hold, htarget, hkept⟩ := commit_spec hcommit
    show ProofOk hash (detachOldRuntime claim row) (s.history ++ [.switched])
    obtain ⟨hclient, hproof⟩ := detachOldRuntime_spec claim row
    rcases hproof with hproof | ⟨hnot, hsame⟩
    · exact Or.inl hproof
    · rw [hsame]
      rcases h with hnone | ⟨clientId, token, boundAt, hstored, _⟩
      · exact Or.inl (hkept.trans hnone)
      · refine Or.inr ⟨clientId, token, boundAt, hkept.trans hstored, fun hback => ?_⟩
        -- The target is the client of the proof, so the agent was there already and the revoke has found it.
        have hthere := hmoves _ (getAgentRuntimeSessionMetadata_toJson hstored) hback
        unfold oldClientCondition at hold
        split at hold
        · next hne =>
          rcases hnot with hnot | hempty
          · exact absurd (hback.trans (hthere.symm.trans hold)) hnot
          · exact absurd hempty hne
        · rw [hold] at hthere
          cases hthere

/-- A call that leaves the proof behind keeps the invariant. -/
theorem sound_step {text : JsonText} {hash : TokenHash} {s : ProofLog} {op : ProofOp} (h : Sound hash s)
    (hguard : LeavesProofBehind text s op) : Sound hash (RuntimeSessions.step text hash s op) := by
  cases op with
  | bindAgentRuntimeSession clientId token boundAt clientAvailable =>
    simp only [RuntimeSessions.step, AgentRuntime.bindAgentRuntimeSession]
    by_cases hruns : runsOn s.row clientId clientAvailable = true
    · rw [if_pos hruns]
      refine Or.inr ⟨clientId, token, boundAt, AList.lookup_insert _, fun _ => ?_⟩
      rw [List.getLast?_concat]
    · rw [if_neg hruns]
      exact h
  | revokeAgentRuntimeSession expected => exact h.removed _ fun row hrow => (revoke_removes hrow).2
  | revokeAgentRuntimeSessionIfTokenMatches clientId token =>
    refine h.removed _ fun row hrow => ?_
    unfold AgentRuntime.revokeAgentRuntimeSessionIfTokenMatches at hrow
    split at hrow
    · obtain rfl := Option.some.inj hrow
      exact AList.lookup_erase _ _
    · cases hrow
  | suspendAgent => exact h.written _ _
  | reactivateAgent => exact h.written _ _
  | claimRuntimeSwitch claim =>
    refine h.updated fun row hrow => ?_
    unfold AgentRuntime.claimRuntimeSwitch at hrow
    split at hrow
    · obtain rfl := Option.some.inj hrow
      exact ⟨rfl, lookup_session_insert_switch _ _⟩
    · cases hrow
  | commitRuntimeSwitch claim clientAvailable => exact sound_commit h hguard
  | abortRuntimeSwitchClaim claim =>
    refine h.updated fun row hrow => ?_
    unfold AgentRuntime.abortRuntimeSwitchClaim at hrow
    split at hrow
    · obtain rfl := Option.some.inj hrow
      exact ⟨rfl, lookup_session_erase_switch _⟩
    · cases hrow
  | reactivateCommittedRuntimeSwitch claim =>
    refine h.updated fun row hrow => ?_
    unfold AgentRuntime.reactivateCommittedRuntimeSwitch at hrow
    split at hrow
    · obtain rfl := Option.some.inj hrow
      exact ⟨rfl, lookup_session_erase_switch _⟩
    · cases hrow

/-! ## What the invariant says -/

/-- A token that validates is the one whose hash is stored, for the client the agent runs on. -/
theorem validate_stored {hash : TokenHash} {row : AgentRow} {clientId token : String} {clientAvailable : Bool}
    (h : validateAgentRuntimeSession hash row clientId token clientAvailable = true) :
    row.clientId = some clientId ∧ ∃ binding, getAgentRuntimeSessionMetadata row.metadata = some binding ∧
      binding.clientId = clientId ∧ binding.tokenHash = hash.hash token := by
  unfold validateAgentRuntimeSession at h
  split at h
  · next hruns =>
    simp only [runsOn, Bool.and_eq_true, decide_eq_true_eq] at hruns
    split at h
    · next binding hbinding =>
      simp only [Bool.and_eq_true, decide_eq_true_eq] at h
      exact ⟨hruns.1.1, binding, hbinding, h⟩
    · cases h
  · cases h

/-- Where the invariant holds the proofs are fenced. -/
theorem Sound.fenced {hash : TokenHash} {s : ProofLog} (h : Sound hash s) : ProofsFenced hash s := by
  have hcurrent : ∀ clientId token clientAvailable,
      validateAgentRuntimeSession hash s.row clientId token clientAvailable = true →
      s.history.getLast? = some (.bound clientId token) := by
    intro clientId token clientAvailable hvalid
    obtain ⟨hclient, binding, hbinding, rfl, htoken⟩ := validate_stored hvalid
    rcases h with hnone | ⟨clientId', token', boundAt, hstored, hlast⟩
    · rw [getAgentRuntimeSessionMetadata, hnone] at hbinding
      cases hbinding
    · rw [getAgentRuntimeSessionMetadata_toJson hstored] at hbinding
      obtain rfl := Option.some.inj hbinding
      obtain rfl := hash.injective htoken
      exact hlast hclient
  refine ⟨hcurrent, fun before after token hhistory hfresh clientId clientAvailable => ?_⟩
  by_contra hvalid
  rw [Bool.not_eq_false] at hvalid
  have hlast := hcurrent clientId token clientAvailable hvalid
  rw [hhistory, List.getLast?_append_cons] at hlast
  have hmem := List.mem_of_getLast? hlast
  simp only [List.mem_cons, reduceCtorEq, false_or] at hmem
  exact hfresh clientId hmem

end RuntimeSessionsAux

open RuntimeSessionsAux

/-! ## The result -/

/-- In every run whose switches never return the agent to the client of its stored proof, the proofs are fenced. -/
theorem runtime_sessions_fenced (text : JsonText) (hash : TokenHash) :
    AlwaysFenced hash (Guarded (LeavesProofBehind text) (ofTotal (RuntimeSessions.step text hash))) := by
  intro row hrow ops s h
  have hsound : Sound hash s := by
    refine h.invariant (fun s op s' hs hstep => ?_) (Or.inl hrow)
    exact hstep.2 ▸ sound_step hs hstep.1
  exact hsound.fenced

namespace RuntimeSessionsExample

/-- Only strings have a text. -/
def strings : JsonText := ⟨Json.string?, Json.string?_str⟩

/-- A hash that keeps the token. -/
def plain : TokenHash := ⟨id, Function.injective_id⟩

/-- A claim between two clients. -/
def move (claimId oldClientId targetClientId : String) : RuntimeSwitchClaim :=
  { claimId := claimId, phase := .claimed, claimedAt := "", claimedByUserId := "u", claimedByMemberId := "m"
    oldClientId := oldClientId, oldRuntimeProvider := "codex", targetClientId := targetClientId, targetRuntimeProvider := "codex" }

/-- An active agent on the client `a`. -/
def agent : AgentRow :=
  { uuid := "g", isHuman := false, status := .active, clientId := some "a", runtimeProvider := "codex", managerId := "m",
    metadata := ∅ }

/-- A bind on `a`, a switch to `b` where nothing binds, and a switch back to `a`. -/
def thereAndBack : List ProofOp :=
  [.bindAgentRuntimeSession "a" "t" "" true,
    .claimRuntimeSwitch (move "1" "a" "b"), .commitRuntimeSwitch (move "1" "a" "b") true,
    .reactivateCommittedRuntimeSwitch (move "1" "a" "b"),
    .claimRuntimeSwitch (move "2" "b" "a"), .commitRuntimeSwitch (move "2" "b" "a") true,
    .reactivateCommittedRuntimeSwitch (move "2" "b" "a")]

end RuntimeSessionsExample

open RuntimeSessionsExample in
/-- After two switches the token of the first bind validates again. -/
theorem runtime_sessions_revived : ¬ AlwaysFenced plain (ofTotal (RuntimeSessions.step strings plain)) := by
  intro h
  have hrun := h agent rfl thereAndBack _ (Run.ofTotal_iff.mpr rfl)
  have hlast := hrun.current "a" "t" true (by decide)
  exact absurd hlast (by decide)

end FirstTree
