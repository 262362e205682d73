import FirstTree.Server.MessagePreflight

/-!
# What an accepted preflight has checked and prepared

The checks an accepted send has passed, and the metadata it stores, read key by key.
-/

namespace FirstTree

open MessagePreflight

namespace MessagePreflightAux

/-! ## Accepted checks -/

/-- A sequence that succeeds runs its first part to a value and the rest on that value. -/
theorem bind_ok {ε α β : Type} {x : Except ε α} {f : α → Except ε β} {b : β} (h : x >>= f = .ok b) :
    ∃ a, x = .ok a ∧ f a = .ok b := by
  cases x with
  | error e => exact absurd h nofun
  | ok a => exact ⟨a, rfl, h⟩

/-- A check that passes found its condition false. -/
theorem reject_ok {condition : Prop} [Decidable condition] {error : SendError} {u : Unit} (h : reject condition error = .ok u) :
    ¬ condition := by
  intro hc
  rw [reject, if_pos hc] at h
  exact absurd h nofun

/-! ## The prepared metadata -/

/-- Dropping a key leaves the other keys as they are. -/
theorem lookup_withoutKey (k : String) (m : Metadata) (key : String) :
    (withoutKey k m).lookup key = if key = k then none else m.lookup key := by
  rw [withoutKey, AssocList.lookup_filterKeys]
  by_cases h : key = k <;> simp [h]

/-- The metadata before the final-text flag, at any key. -/
theorem lookup_metadataToStore (input : SendIntent) (routing : Routing) (m : Metadata) (key : String) :
    (metadataToStore input routing m).lookup key =
      if key = teamSkillInvocationKey then none
      else if key = addressedAgentIdsKey ∧ (addressedAgentIds input routing.mergedMentions).isEmpty = false then
        some (idArray (addressedAgentIds input routing.mergedMentions))
      else if key = "mentions" ∧ (routing.dropInactiveMentionTargets || ! routing.mergedMentions.isEmpty) then
        some (idArray routing.mergedMentions)
      else m.lookup key := by
  have hne : addressedAgentIdsKey ≠ "mentions" := by decide
  simp only [metadataToStore, lookup_withoutKey]
  by_cases ht : key = teamSkillInvocationKey
  · rw [if_pos ht, if_pos ht]
  rw [if_neg ht, if_neg ht]
  by_cases ha : key = addressedAgentIdsKey
  · subst ha
    cases (addressedAgentIds input routing.mergedMentions).isEmpty <;>
      cases routing.dropInactiveMentionTargets || ! routing.mergedMentions.isEmpty <;> simp [hne, AList.lookup_insert_ne hne]
  · by_cases hm : key = "mentions"
    · subst hm
      cases (addressedAgentIds input routing.mergedMentions).isEmpty <;>
        cases routing.dropInactiveMentionTargets || ! routing.mergedMentions.isEmpty <;>
        simp [hne.symm, AList.lookup_insert_ne hne.symm]
    · cases (addressedAgentIds input routing.mergedMentions).isEmpty <;>
        cases routing.dropInactiveMentionTargets || ! routing.mergedMentions.isEmpty <;>
        simp [ha, hm, AList.lookup_insert_ne ha, AList.lookup_insert_ne hm]

/-- The final-text flag depends on the purpose, the sender and the runtime notice. -/
theorem lookup_stampAgentFinalText (input : SendIntent) (m : Metadata) (key : String) :
    (stampAgentFinalText input m).lookup key =
      if key = agentFinalTextKey then if isAgentFinalTextMirror input m then some (.bool true) else none else m.lookup key := by
  simp only [stampAgentFinalText]
  by_cases hk : key = agentFinalTextKey
  · subst hk
    cases isAgentFinalTextMirror input m <;> simp [lookup_withoutKey]
  · cases isAgentFinalTextMirror input m <;> simp [hk, AList.lookup_insert_ne hk, lookup_withoutKey]

/-- A stamped key has the marker, where there is one. -/
theorem lookup_stamp (k : String) (marker : Option Json) (m : Metadata) (key : String) :
    (stamp k marker m).lookup key = if key = k then marker.or (m.lookup key) else m.lookup key := by
  cases marker with
  | none => simp [stamp]
  | some value =>
    by_cases hk : key = k
    · subst hk
      simp [stamp]
    · simp [stamp, hk, AList.lookup_insert_ne hk]

/-! ## The checks of a preflight -/

/-- The body after normalisation, whatever body origin is claimed. -/
def normalizedContent (rd : MessageReaders) (senderType : SenderType) : Json → Json
  | .str content => if senderType = .human then .str content else .str ((maybeUnwrapDoubleEncoded rd content).getD content)
  | content => content

/-- A claimed body origin decides whether the body is accepted, not what it becomes. -/
theorem normalizeNonHumanTextContent_ok {rd : MessageReaders} {senderType : SenderType} {allow : Bool} {content body : Json}
    (h : normalizeNonHumanTextContent rd senderType allow content = .ok body) : body = normalizedContent rd senderType content := by
  cases content with
  | str content =>
    simp only [normalizeNonHumanTextContent] at h
    simp only [normalizedContent]
    by_cases hs : senderType = .human
    · rw [if_pos hs] at h ⊢
      exact (Except.ok.inj h).symm
    · rw [if_neg hs] at h ⊢
      cases allow
      · obtain ⟨_, _, h⟩ := bind_ok h
        exact (Except.ok.inj h).symm
      · exact (Except.ok.inj h).symm
  | _ => exact (Except.ok.inj h).symm

/-- An accepted preflight, by its normalised body and the metadata it works with; a request has the target it needs. -/
theorem preflight_ok {rd : MessageReaders} {input : SendIntent} {r : SendMessagePreflightResult}
    (h : preflightMessageSendIntent rd input = .ok r) :
    ∃ incomingMeta, incomingMetadata rd input (normalizedContent rd input.senderType input.data.content)
        (input.data.metadata.getD ∅) = .ok incomingMeta ∧
      r.metadata = stampAgentFinalText input (metadataToStore input (resolveRouting rd input incomingMeta) incomingMeta) ∧
      r.mentionedAgentIds = (resolveRouting rd input incomingMeta).mergedMentions ∧
      checkRequestTarget input (resolveRouting rd input incomingMeta) = .ok () := by
  obtain ⟨_, _, h⟩ := bind_ok h
  obtain ⟨content, hc, h⟩ := bind_ok h
  obtain rfl := normalizeNonHumanTextContent_ok hc
  obtain ⟨_, _, h⟩ := bind_ok h
  obtain ⟨incomingMeta, hi, h⟩ := bind_ok h
  obtain ⟨_, _, h⟩ := bind_ok h
  obtain ⟨_, _, h⟩ := bind_ok h
  obtain ⟨_, _, h⟩ := bind_ok h
  obtain ⟨_, hrequest, h⟩ := bind_ok h
  obtain ⟨_, _, h⟩ := bind_ok h
  obtain rfl := Except.ok.inj h
  exact ⟨incomingMeta, hi, rfl, rfl, hrequest⟩

end MessagePreflightAux

end FirstTree
