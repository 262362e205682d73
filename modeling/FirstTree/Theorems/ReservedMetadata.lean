import FirstTree.Lemmas.MessagePreflight

/-!
# Reserved metadata cannot be forged

A caller without a trusted capability writes no server-owned key. The metadata preflight prepares is a function of the caller's object
without its server-owned keys (`preflight_lookup`): what stripping misses at one stage is dropped or stamped again at a later one. So
two calls that differ in server-owned keys only prepare, and store, the same metadata.
-/

namespace FirstTree

open MessagePreflight MessagePreflightAux

/-! ## What is server-owned -/

/-- The keys of a stored metadata object only the server writes, by the type of the sender. -/
def isServerOwnedKey (senderType : SenderType) (key : String) : Bool :=
  isContextReviewKey key || isGithubTaskKey key || key = cronTriggerKey || key = "systemSender" || key = "feishu" ||
    key = "editedAt" || key = addressedAgentIdsKey || key = askAgentKey || key = cliBodyOriginKey || key = firstChatOrientationKey ||
    key = firstChatOrientationContinuationKey || key = teamSkillInvocationKey || key = agentFinalTextKey ||
    (senderType = .human && key = contextDecisionKey)

/-- A caller with none of the trusted capabilities to write metadata. -/
structure Untrusted (options : SendMessageOptions) : Prop where
  systemSender : options.allowSystemSender = false
  contextReviewRun : options.allowContextReviewRun = false
  githubTaskRun : options.allowGithubTaskRun = false
  cronTrigger : options.allowCronTrigger = false
  firstChatOrientation : options.allowFirstChatOrientation = false
  feishuMetadata : options.allowFeishuMetadata = false

/-- The same send with another metadata object. -/
def SendIntent.withMetadata (input : SendIntent) (metadata : Option Metadata) : SendIntent :=
  { input with data := { input.data with metadata := metadata } }

/-- The caller's metadata, without its server-owned keys. -/
def SendIntent.callerMetadata (input : SendIntent) : Metadata :=
  AssocList.filterKeys (fun key => ! isServerOwnedKey input.senderType key) (input.data.metadata.getD ∅)

/-- The value preflight prepares for a server-owned key, computed from a caller's metadata: the agents the send is expected to wake,
the flag of an agent's final text, and nothing else. -/
def serverOwnedValue (rd : MessageReaders) (input : SendIntent) (callerMetadata : Metadata) (key : String) : Option Json :=
  if key = addressedAgentIdsKey then
    let addressed := addressedAgentIds input (resolveRouting rd input callerMetadata).mergedMentions
    if addressed.isEmpty then none else some (idArray addressed)
  else if key = agentFinalTextKey then if isAgentFinalTextMirror input callerMetadata then some (.bool true) else none
  else none

/-- The value a marker of the transaction gives a key. -/
def markerValue (markers : ServerMarkers) (key : String) : Option Json :=
  if key = teamSkillInvocationKey then markers.teamSkillInvocation.map teamSkillInvocationMarker
  else if key = firstChatOrientationContinuationKey then markers.continuesFirstChatOrientation.map orientationContinuationMarker
  else if key = askAgentKey then markers.askAgent.map askAgentMarker
  else none

namespace ReservedMetadataAux

/-- A metadata object passes a key check without the capability only if it has no such key. -/
theorem rejectKey_ok {reserved : String → Bool} {allowed : Bool} {owner : String} {code : Option String} {metadata : Metadata}
    {u : Unit} (h : rejectKey reserved allowed owner code metadata = .ok u) (ha : allowed = false) {key : String}
    (hk : reserved key = true) : metadata.lookup key = none := by
  rw [AList.lookup_eq_none]
  intro hm
  simp only [rejectKey] at h
  split at h
  · exact reject_ok h ha
  · rename_i hf
    exact absurd hk (by simpa using List.find?_eq_none.mp hf key (AList.mem_keys.mp hm))

/-! ## The trust boundary, read key by key -/

/-- The value of `contextDecision` after the trust boundary, by the value the caller gave. -/
def contextDecisionValue (rd : MessageReaders) (senderType : SenderType) (body : Json) (given : Option Json) : Option Json :=
  if senderType = .human then none
  else
    match bodyNotes rd body with
    | [some derived] => some derived
    | _ :: _ => none
    | [] => given.bind rd.contextDecision

/-- What the strip accepts holds no key of a run or a trigger, and keeps the keys its filter keeps. -/
theorem lookup_strip {options : SendMessageOptions} (hu : Untrusted options) {raw m : Metadata}
    (h : stripUntrustedMetadataKeys raw options = .ok m) (key : String) :
    m.lookup key = if isContextReviewKey key || isGithubTaskKey key || key = cronTriggerKey || ! keepsMetadataKey options key
      then none else raw.lookup key := by
  obtain ⟨_, h₁, h⟩ := bind_ok h
  obtain ⟨_, h₂, h⟩ := bind_ok h
  obtain ⟨_, h₃, h⟩ := bind_ok h
  obtain rfl := Except.ok.inj h
  rw [AssocList.lookup_filterKeys]
  cases hr : isContextReviewKey key
  · cases hg : isGithubTaskKey key
    · by_cases hc : key = cronTriggerKey
      · simp [hc, rejectKey_ok h₃ hu.cronTrigger]
      · cases hk : keepsMetadataKey options key <;> simp [hc]
    · simp [rejectKey_ok h₂ hu.githubTaskRun hg]
  · simp [rejectKey_ok h₁ hu.contextReviewRun hr]

/-- The trust boundary of the receipt changes its key only. -/
theorem lookup_contextDecision {rd : MessageReaders} {senderType : SenderType} {body : Json} {m b : Metadata}
    (h : applyContextDecisionTrustBoundary rd m senderType body = .ok b) (key : String) :
    b.lookup key = if key = contextDecisionKey then contextDecisionValue rd senderType body (m.lookup contextDecisionKey)
      else m.lookup key := by
  have insert_at : ∀ value : Json, (m.insert contextDecisionKey value).lookup key =
      if key = contextDecisionKey then some value else m.lookup key := by
    intro value
    by_cases hk : key = contextDecisionKey
    · subst hk
      rw [AList.lookup_insert, if_pos rfl]
    · rw [AList.lookup_insert_ne hk, if_neg hk]
  unfold applyContextDecisionTrustBoundary at h
  unfold contextDecisionValue
  by_cases hs : senderType = .human
  · rw [if_pos hs] at h
    obtain rfl := Except.ok.inj h
    rw [if_pos hs, lookup_withoutKey]
  · rw [if_neg hs] at h
    rw [if_neg hs]
    have dropped : (Except.ok (withoutKey contextDecisionKey m) : Except SendError Metadata) = .ok b →
        b.lookup key = if key = contextDecisionKey then none else m.lookup key := by
      intro hb
      obtain rfl := Except.ok.inj hb
      exact lookup_withoutKey contextDecisionKey m key
    rcases hn : bodyNotes rd body with _ | ⟨_ | derived, _ | ⟨next, rest⟩⟩
    · simp only [hn] at h ⊢
      split at h
      · next hg =>
        obtain rfl := Except.ok.inj h
        by_cases hk : key = contextDecisionKey
        · subst hk
          simp [hg]
        · rw [if_neg hk]
      · next raw hg =>
        split at h
        · next parsed hp =>
          obtain rfl := Except.ok.inj h
          rw [insert_at, hg]
          simp [hp]
        · exact absurd h nofun
    · simp only [hn] at h
      exact dropped h
    · simp only [hn] at h
      exact dropped h
    · simp only [hn] at h
      obtain rfl := Except.ok.inj h
      exact insert_at derived
    · simp only [hn] at h
      exact dropped h

/-- Without the capability, the channel's metadata is left as it is. -/
theorem trustedFeishu_untrusted {rd : MessageReaders} {options : SendMessageOptions} (hu : Untrusted options) (m : Metadata) :
    trustedFeishu rd options m = .ok m := by
  unfold trustedFeishu
  rw [hu.feishuMetadata]

/-- The keys stripping leaves to the later stages: the Team Skill marker and the final-text flag. -/
def isLateKey (key : String) : Bool := key = teamSkillInvocationKey || key = agentFinalTextKey

/-- Without trusted capabilities, the strip drops exactly the server-owned keys the later stages do not deal with. -/
theorem strip_drops {options : SendMessageOptions} (hu : Untrusted options) (key : String) :
    (isContextReviewKey key || isGithubTaskKey key || key = cronTriggerKey || ! keepsMetadataKey options key) =
      (isServerOwnedKey .agent key && ! isLateKey key) := by
  simp only [keepsMetadataKey, hu.feishuMetadata, hu.firstChatOrientation, hu.systemSender, Bool.false_or]
  by_cases h₁ : key = teamSkillInvocationKey
  · subst h₁
    decide +kernel
  by_cases h₂ : key = agentFinalTextKey
  · subst h₂
    decide +kernel
  simp only [isLateKey, isServerOwnedKey, h₁, h₂]
  grind

/-- The type of the sender matters to the receipt only. -/
theorem isServerOwnedKey_of_ne (senderType : SenderType) {key : String} (h : key ≠ contextDecisionKey) :
    isServerOwnedKey senderType key = isServerOwnedKey .agent key := by
  simp [isServerOwnedKey, h]

/-- The receipt is server-owned for a human only. -/
theorem isServerOwnedKey_contextDecision {senderType : SenderType} (h : senderType ≠ .human) :
    isServerOwnedKey senderType contextDecisionKey = false := by
  simp only [isServerOwnedKey, h, decide_false, Bool.false_and, Bool.or_false]
  decide +kernel

/-- What is left of the caller's metadata, at any key. -/
theorem lookup_callerMetadata (input : SendIntent) (key : String) :
    input.callerMetadata.lookup key =
      if isServerOwnedKey input.senderType key then none else (input.data.metadata.getD ∅).lookup key := by
  rw [SendIntent.callerMetadata, AssocList.lookup_filterKeys]
  cases isServerOwnedKey input.senderType key <;> simp

/-- The metadata preflight works with, at every key the later stages do not deal with: the caller's, with the receipt derived. -/
theorem lookup_incoming {rd : MessageReaders} {input : SendIntent} (hu : Untrusted input.options) {content : Json} {m : Metadata}
    (h : incomingMetadata rd input content (input.data.metadata.getD ∅) = .ok m) {key : String} (hl : isLateKey key = false) :
    m.lookup key = if key = contextDecisionKey
      then contextDecisionValue rd input.senderType content (input.callerMetadata.lookup contextDecisionKey)
      else input.callerMetadata.lookup key := by
  obtain ⟨stripped, h₁, h⟩ := bind_ok h
  obtain ⟨bounded, h₂, h⟩ := bind_ok h
  rw [trustedFeishu_untrusted hu] at h
  obtain ⟨_, h₃, h⟩ := bind_ok h
  obtain rfl := Except.ok.inj h₃
  obtain ⟨_, _, h⟩ := bind_ok h
  obtain ⟨_, _, h⟩ := bind_ok h
  obtain rfl := Except.ok.inj h
  have hs : ∀ k, isLateKey k = false →
      stripped.lookup k = if isServerOwnedKey .agent k then none else (input.data.metadata.getD ∅).lookup k := by
    intro k hk
    rw [lookup_strip hu h₁, strip_drops hu, hk]
    simp
  rw [lookup_contextDecision h₂]
  by_cases hk : key = contextDecisionKey
  · subst hk
    rw [if_pos rfl, if_pos rfl]
    by_cases hh : input.senderType = .human
    · simp [contextDecisionValue, hh]
    · rw [hs _ hl, lookup_callerMetadata, isServerOwnedKey_contextDecision hh,
        isServerOwnedKey_contextDecision (show SenderType.agent ≠ .human from nofun)]
  · rw [if_neg hk, if_neg hk, hs _ hl, lookup_callerMetadata, isServerOwnedKey_of_ne input.senderType hk]

/-- Routing reads the mentions and the resolution of a metadata object. -/
theorem resolveRouting_congr (rd : MessageReaders) (input : SendIntent) {m m' : Metadata}
    (hm : m.lookup "mentions" = m'.lookup "mentions") (hr : m.lookup "resolves" = m'.lookup "resolves") :
    resolveRouting rd input m = resolveRouting rd input m' := by
  simp only [resolveRouting, resolutionOf, hm, hr]

/-! ## The prepared metadata, key by key -/

/-- The flag of the final text reads the runtime notice only. -/
theorem isAgentFinalTextMirror_congr (input : SendIntent) {m m' : Metadata}
    (h : m.lookup runtimeNoticeKey = m'.lookup runtimeNoticeKey) :
    isAgentFinalTextMirror input m = isAgentFinalTextMirror input m' := by
  simp only [isAgentFinalTextMirror, h]

/-- What preflight prepares at a key, computed from a caller's metadata. -/
def preparedValue (rd : MessageReaders) (input : SendIntent) (callerMetadata : Metadata) (key : String) : Option Json :=
  let routing := resolveRouting rd input callerMetadata
  if isServerOwnedKey input.senderType key then serverOwnedValue rd input callerMetadata key
  else if key = "mentions" then
    if routing.dropInactiveMentionTargets || ! routing.mergedMentions.isEmpty then some (idArray routing.mergedMentions)
    else callerMetadata.lookup "mentions"
  else if key = contextDecisionKey then
    contextDecisionValue rd input.senderType (normalizedContent rd input.senderType input.data.content)
      (callerMetadata.lookup contextDecisionKey)
  else callerMetadata.lookup key

/-- Preflight prepares a function of the caller's metadata without its server-owned keys. -/
theorem preflight_lookup {rd : MessageReaders} {input : SendIntent} (hu : Untrusted input.options) {r : SendMessagePreflightResult}
    (h : preflightMessageSendIntent rd input = .ok r) :
    (∀ key, r.metadata.lookup key = preparedValue rd input input.callerMetadata key) ∧
      r.mentionedAgentIds = (resolveRouting rd input input.callerMetadata).mergedMentions := by
  obtain ⟨incomingMeta, hi, hr, hm, _⟩ := preflight_ok h
  have hroute : resolveRouting rd input incomingMeta = resolveRouting rd input input.callerMetadata :=
    resolveRouting_congr rd input (lookup_incoming hu hi (by decide)) (lookup_incoming hu hi (by decide))
  have hnotice : incomingMeta.lookup runtimeNoticeKey = input.callerMetadata.lookup runtimeNoticeKey :=
    lookup_incoming hu hi (by decide)
  refine ⟨fun key => ?_, by rw [hm, hroute]⟩
  have hmirror : isAgentFinalTextMirror input (metadataToStore input (resolveRouting rd input input.callerMetadata) incomingMeta) =
      isAgentFinalTextMirror input input.callerMetadata := by
    refine isAgentFinalTextMirror_congr input ?_
    rw [lookup_metadataToStore, if_neg (by decide), if_neg (fun hk => absurd hk.1 (by decide)),
      if_neg (fun hk => absurd hk.1 (by decide)), hnotice]
  rw [hr, hroute, lookup_stampAgentFinalText, hmirror, lookup_metadataToStore, preparedValue]
  have hmentions : isServerOwnedKey input.senderType "mentions" = false := by
    rw [isServerOwnedKey_of_ne input.senderType (by decide)]
    decide +kernel
  by_cases hf : key = agentFinalTextKey
  · subst hf
    have ho : isServerOwnedKey input.senderType agentFinalTextKey = true := by
      rw [isServerOwnedKey_of_ne input.senderType (by decide)]
      decide +kernel
    have ha : agentFinalTextKey ≠ addressedAgentIdsKey := by decide
    simp only [if_true, ho, serverOwnedValue, ha, if_false]
  rw [if_neg hf]
  by_cases ht : key = teamSkillInvocationKey
  · subst ht
    have ho : isServerOwnedKey input.senderType teamSkillInvocationKey = true := by
      rw [isServerOwnedKey_of_ne input.senderType (by decide)]
      decide +kernel
    have ha : teamSkillInvocationKey ≠ addressedAgentIdsKey := by decide
    simp only [if_true, ho, serverOwnedValue, ha, hf, if_false]
  rw [if_neg ht, lookup_incoming hu hi (by simp [isLateKey, ht, hf])]
  cases ho : isServerOwnedKey input.senderType key
  · -- A key that is not the server's: neither the addressed agents nor a late key.
    have ha : key ≠ addressedAgentIdsKey := by
      rintro rfl
      simp [isServerOwnedKey] at ho
    rw [if_neg (fun h => ha h.1)]
    by_cases hm : key = "mentions"
    · subst hm
      have hd : "mentions" ≠ contextDecisionKey := by decide
      simp [hd]
    · rw [if_neg (fun h => hm h.1)]
      simp [hm]
  · have hm : key ≠ "mentions" := by
      rintro rfl
      exact absurd ho (by simp [hmentions])
    have hnone : (if key = contextDecisionKey
        then contextDecisionValue rd input.senderType (normalizedContent rd input.senderType input.data.content)
          (input.callerMetadata.lookup contextDecisionKey)
        else input.callerMetadata.lookup key) = none := by
      by_cases hk : key = contextDecisionKey
      · rw [if_pos hk]
        by_cases hh : input.senderType = .human
        · simp [contextDecisionValue, hh]
        · rw [hk, isServerOwnedKey_contextDecision hh] at ho
          exact absurd ho nofun
      · rw [if_neg hk, lookup_callerMetadata, ho]
        rfl
    rw [hnone, if_pos rfl, serverOwnedValue]
    by_cases ha : key = addressedAgentIdsKey
    · cases addressedAgentIds input (resolveRouting rd input input.callerMetadata).mergedMentions <;> simp [ha, ha ▸ hm]
    · rw [if_neg (fun h => ha h.1), if_neg (fun h => hm h.1), if_neg ha, if_neg hf]

/-- The prepared values depend on the values of the caller's metadata only. -/
theorem preparedValue_congr (rd : MessageReaders) (input : SendIntent) {m m' : Metadata} (h : ∀ key, m.lookup key = m'.lookup key)
    (key : String) : preparedValue rd input m key = preparedValue rd input m' key := by
  simp only [preparedValue, serverOwnedValue, resolveRouting_congr rd input (h "mentions") (h "resolves"),
    isAgentFinalTextMirror_congr input (h runtimeNoticeKey), h]

/-- The stored metadata is the prepared one, with the markers. -/
theorem lookup_stampServerMarkers (markers : ServerMarkers) (m : Metadata) (key : String) :
    (stampServerMarkers markers m).lookup key = (markerValue markers key).or (m.lookup key) := by
  have h₁ : teamSkillInvocationKey ≠ firstChatOrientationContinuationKey := by decide
  have h₂ : teamSkillInvocationKey ≠ askAgentKey := by decide
  have h₃ : firstChatOrientationContinuationKey ≠ askAgentKey := by decide
  simp only [stampServerMarkers, lookup_stamp, markerValue]
  by_cases ht : key = teamSkillInvocationKey
  · simp [ht, h₁, h₂]
  · by_cases hc : key = firstChatOrientationContinuationKey
    · simp [hc, h₁.symm, h₃]
    · by_cases ha : key = askAgentKey
      · simp [ha, h₂.symm, h₃.symm]
      · simp [ht, hc, ha]

end ReservedMetadataAux

open ReservedMetadataAux

/-- Without a trusted capability, two accepted calls whose metadata differ in server-owned keys only prepare the same metadata, and
every server-owned key holds what the server computes from the rest of the caller's object, or nothing. The same holds of the metadata
of the stored row, where a server-owned key may hold a marker of the transaction instead. -/
theorem reserved_metadata_unforgeable (rd : MessageReaders) (reads : SendReads) (input : SendIntent) (other : Option Metadata)
    (untrusted : Untrusted input.options)
    (agree : ∀ key, isServerOwnedKey input.senderType key = false →
      (input.data.metadata.getD ∅).lookup key = (other.getD ∅).lookup key)
    {r r' : SendMessagePreflightResult} (accepted : preflightMessageSendIntent rd input = .ok r)
    (accepted' : preflightMessageSendIntent rd (input.withMetadata other) = .ok r') :
    (∀ key, r.metadata.lookup key = r'.metadata.lookup key) ∧
      (∀ key, isServerOwnedKey input.senderType key →
        r.metadata.lookup key = serverOwnedValue rd input input.callerMetadata key) ∧
      ∀ m m', storedMetadata rd reads input = .ok m → storedMetadata rd reads (input.withMetadata other) = .ok m' →
        (∀ key, m.lookup key = m'.lookup key) ∧
          ∃ markers, serverMarkers reads input r.mentionedAgentIds = .ok markers ∧
            ∀ key, isServerOwnedKey input.senderType key →
              m.lookup key = (markerValue markers key).or (serverOwnedValue rd input input.callerMetadata key) := by
  obtain ⟨hr, hmentioned⟩ := preflight_lookup untrusted accepted
  obtain ⟨hr', hmentioned'⟩ := preflight_lookup (show Untrusted (input.withMetadata other).options from untrusted) accepted'
  have hcaller : ∀ key, input.callerMetadata.lookup key = (input.withMetadata other).callerMetadata.lookup key := by
    intro key
    rw [lookup_callerMetadata, lookup_callerMetadata]
    cases ho : isServerOwnedKey input.senderType key
    · simp only [SendIntent.withMetadata, ho, Bool.false_eq_true, if_false]
      exact agree key ho
    · simp only [SendIntent.withMetadata, ho, if_true]
  have hsame : ∀ key, r.metadata.lookup key = r'.metadata.lookup key := by
    intro key
    rw [hr, hr', preparedValue_congr rd input hcaller]
    rfl
  have howned : ∀ key, isServerOwnedKey input.senderType key →
      r.metadata.lookup key = serverOwnedValue rd input input.callerMetadata key := by
    intro key ho
    rw [hr, preparedValue, if_pos ho]
  have hids : r.mentionedAgentIds = r'.mentionedAgentIds := by
    rw [hmentioned, hmentioned', resolveRouting_congr rd input (hcaller "mentions") (hcaller "resolves")]
    rfl
  refine ⟨hsame, howned, fun m m' hm hm' => ?_⟩
  rw [storedMetadata, accepted] at hm
  rw [storedMetadata, accepted'] at hm'
  obtain ⟨_, h₁, hm⟩ := bind_ok hm
  obtain rfl := Except.ok.inj h₁
  obtain ⟨markers, hmk, hm⟩ := bind_ok hm
  obtain rfl := Except.ok.inj hm
  obtain ⟨_, h₁, hm'⟩ := bind_ok hm'
  obtain rfl := Except.ok.inj h₁
  obtain ⟨markers', hmk', hm'⟩ := bind_ok hm'
  obtain rfl := Except.ok.inj hm'
  have hmarkers : markers = markers' := by
    rw [← hids] at hmk'
    exact Except.ok.inj (hmk.symm.trans hmk')
  refine ⟨fun key => ?_, markers, hmk, fun key ho => ?_⟩
  · rw [lookup_stampServerMarkers, lookup_stampServerMarkers, hsame, hmarkers]
  · rw [lookup_stampServerMarkers, howned key ho]

namespace ReservedMetadataExample

/-- Readers that find nothing. -/
def readers : MessageReaders :=
  { isAttachmentRef := fun _ => false, isFileContent := fun _ => false, isDocumentContext := fun _ => false
    contextDecision := fun _ => none, impactNotes := fun _ => [], feishuMessageMetadata := fun _ => none
    jsonString := fun _ => none, toLowerCase := fun s => String.ofList (s.toList.map Char.toLower), binName := "first-tree" }

/-- An ordinary caller. -/
def untrustedOptions : SendMessageOptions :=
  { integrationSender := false, allowFeishuMetadata := false, forceSilentFanOut := false, allowFirstChatOrientation := false
    askAgentRequestId := none, allowRecipientlessSend := false, dropInactiveMentionTargets := false
    normalizeMentionsInContent := true, addressedToAgentIds := [], allowSystemSender := false, allowContextReviewRun := false
    allowGithubTaskRun := false, allowCronTrigger := false }

/-- A message to the agent `b`. -/
def honest : Metadata := (∅ : Metadata).insert "mentions" (.arr [.str "b"])

/-- The same message, under a forged sender. -/
def forged : Metadata := honest.insert "systemSender" (.str "github")

/-- The agent `a` sends the forged message in a chat with `b`. -/
def send : SendIntent :=
  { chatId := "c", senderId := "a", senderType := .agent
    data := { format := .text, content := .str "hello", metadata := some forged, inReplyTo := none, source := .api, purpose := none
              receiverNames := [], skillPrecondition := none }
    options := untrustedOptions
    participants := [⟨"a", some "ann", "Ann", .active, .agent⟩, ⟨"b", some "bob", "Bob", .active, .agent⟩] }

/-- A computation that is known to succeed has a value. -/
theorem exists_of_isOk {ε α : Type} {x : Except ε α} (h : x.isOk = true) : ∃ a, x = .ok a := by
  cases x with
  | error e => exact absurd h nofun
  | ok a => exact ⟨a, rfl⟩

end ReservedMetadataExample

open ReservedMetadataExample in
/-- A forged sender is accepted and leaves no trace. -/
theorem reserved_metadata_unforgeable_forged :
    ∃ r r', preflightMessageSendIntent readers send = .ok r ∧
      preflightMessageSendIntent readers (send.withMetadata (some honest)) = .ok r' ∧
      ∀ key, r.metadata.lookup key = r'.metadata.lookup key := by
  obtain ⟨r, accepted⟩ := exists_of_isOk (show (preflightMessageSendIntent readers send).isOk = true by decide +kernel)
  obtain ⟨r', accepted'⟩ :=
    exists_of_isOk (show (preflightMessageSendIntent readers (send.withMetadata (some honest))).isOk = true by decide +kernel)
  have agree : ∀ key, isServerOwnedKey send.senderType key = false →
      (send.data.metadata.getD ∅).lookup key = ((some honest).getD ∅).lookup key := by
    intro key ho
    refine AList.lookup_insert_ne ?_
    rintro rfl
    exact absurd ho (by decide +kernel)
  let reads : SendReads := ⟨none, none, none, fun _ => none, none, fun _ => none, fun _ _ => false⟩
  exact ⟨r, r', accepted, accepted',
    (reserved_metadata_unforgeable readers reads send (some honest) ⟨rfl, rfl, rfl, rfl, rfl, rfl⟩ agree accepted accepted').1⟩

end FirstTree
