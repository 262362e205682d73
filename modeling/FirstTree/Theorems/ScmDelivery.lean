import FirstTree.Lemmas.ScmAudience

/-!
# Deliveries that do not depend on the order of the rows

Every target that resolves to a chat is in the one delivery of that chat, the chat wakes the agents of its targets that are not
echoes, and another order of the existing entries or the personnel targets makes the same chats with the same sender, wake list
and card.
-/

namespace FirstTree

/-- A target is a line of the actor that existed before the event. -/
def IsOwnExistingLine {π : Type} (actorHumanId : Option Identifier) (t : ScmAudienceTarget π) (r : ResolvedScmChat) : Prop :=
  (t.isExistingLine = true ∨ r.personnelLineExisted = some true) ∧ ∃ h, actorHumanId = some h ∧ scmTargetHumanAgentId t = some h

/-- An entry represents a target: it has the target's route, its reasons, its card context, a capability when the target has one,
and a wake at least as strong. -/
structure Represents {π : Type} (actorHumanId : Option Identifier) (t : ScmAudienceTarget π) (r : ResolvedScmChat)
    (e : ScmDeliveryEntry π) : Prop where
  sender : e.senderAgentId = scmTargetSenderAgentId t
  human : e.humanAgentId = scmTargetHumanAgentId t
  wake : e.wakeAgentId = scmTargetWakeAgentId t
  eligibility : wakeEligibilityRank e.wakeEligibility ≤ wakeEligibilityRank (scmWakeEligibility t actorHumanId r)
  reasons : ∀ reason ∈ t.reasons, reason ∈ e.reasons
  card : t.involveReason.isSome = true → e.involveReason = t.involveReason ∧ e.involveLogin = t.involveLogin
  provider : t.providerContext.isSome = true → e.providerContext.isSome = true

/-- Two deliveries of a chat that send the same card: the sender, the wake list, the reason and the login. -/
structure SameCard {π : Type} (C : PlainCollation) (d d' : ScmPlannedChatDelivery π) : Prop where
  sender : selectScmSenderId C d.entries.values = selectScmSenderId C d'.entries.values
  wake : scmWakeAgentIds d.entries.values = scmWakeAgentIds d'.entries.values
  card : selectScmCardContext C d.entries.values = selectScmCardContext C d'.entries.values

/-- What a plan promises for the targets it is made from: one delivery for each chat that a target resolves to, every such target
represented in it, and the wake list of the targets that are neither legacy routes nor lines the actor already had. -/
structure PlanComplete {π ε : Type} (targets : List (ScmAudienceTarget π)) (actorHumanId : Option Identifier)
    (resolveChat : ScmAudienceTarget π → Except ε (Option ResolvedScmChat)) : Prop where
  one_per_chat : (planScmChatDeliveries targets actorHumanId resolveChat).deliveries.keys.Nodup
  chats : ∀ chat, chat ∈ (planScmChatDeliveries targets actorHumanId resolveChat).deliveries.keys ↔
    ∃ t ∈ targets, ∃ r, resolveChat t = .ok (some r) ∧ r.chatId = chat
  own_chat : ∀ chat d, (planScmChatDeliveries targets actorHumanId resolveChat).deliveries.get? chat = some d → d.chatId = chat
  represented : ∀ t ∈ targets, ∀ r, resolveChat t = .ok (some r) →
    ∃ d, (planScmChatDeliveries targets actorHumanId resolveChat).deliveries.get? r.chatId = some d ∧
      ∃ e ∈ d.entries.values, Represents actorHumanId t r e
  wake : ∀ chat d, (planScmChatDeliveries targets actorHumanId resolveChat).deliveries.get? chat = some d →
    (scmWakeAgentIds d.entries.values).Nodup ∧ ∀ id, id ∈ scmWakeAgentIds d.entries.values ↔
      ∃ t ∈ targets, ∃ r, resolveChat t = .ok (some r) ∧ r.chatId = chat ∧ t.isLegacyRoute = false ∧
        ¬ IsOwnExistingLine actorHumanId t r ∧ ∃ w, scmTargetWakeAgentId t = some w ∧ w.text = id

/-- Two plans with the same chats and, for each chat, the same card. -/
structure SamePlan {π ε : Type} (C : PlainCollation) (plan plan' : ScmDeliveryPlan π ε) : Prop where
  chats : ∀ chat, chat ∈ plan.deliveries.keys ↔ chat ∈ plan'.deliveries.keys
  cards : ∀ chat d d', plan.deliveries.get? chat = some d → plan'.deliveries.get? chat = some d' → SameCard C d d'

namespace ScmDeliveryAux

open SelfDelimiting (split_at)

variable {π : Type}

/-! ## The entry of a route -/

/-- The sender, the human and the wake agent of an entry. -/
def entryRoute (e : ScmDeliveryEntry π) : Identifier × Option Identifier × Option Identifier :=
  (e.senderAgentId, e.humanAgentId, e.wakeAgentId)

/-- The key of a route. -/
def routeKey (route : Identifier × Option Identifier × Option Identifier) : String :=
  route.1.text ++ ":" ++ ((route.2.1.map (·.text)).getD "-") ++ ":" ++ ((route.2.2.map (·.text)).getD "-")

/-- The key of a target is that of its route. -/
theorem deliveryEntryKey_eq (t : ScmAudienceTarget π) : deliveryEntryKey t = routeKey (targetRoute t) := rfl

/-- The key of a route determines it. -/
theorem routeKey_injective {r r' : Identifier × Option Identifier × Option Identifier} (hr : Shaped r) (hr' : Shaped r')
    (h : routeKey r = routeKey r') : r = r' := by
  have hk := congrArg String.toList h
  have hdash : ':' ∉ "-".toList := by decide
  have hissued : ∀ a : Identifier, a.text.toList ≠ "-".toList := fun a ha => a.issued (String.toList_inj.mp ha)
  rcases hr with ⟨s, rfl⟩ | ⟨a, w, rfl⟩ <;> rcases hr' with ⟨s', rfl⟩ | ⟨a', w', rfl⟩ <;>
    simp only [routeKey, Option.map_none, Option.map_some, Option.getD_none, Option.getD_some, String.toList_append,
      List.append_assoc] at hk
  · rw [identifier_ext (split_at (colon_notMem s) (colon_notMem s') hk).1]
  · obtain ⟨_, hk⟩ := split_at (colon_notMem s) (colon_notMem a') hk
    exact absurd (split_at hdash (colon_notMem a') hk).1.symm (hissued a')
  · obtain ⟨_, hk⟩ := split_at (colon_notMem a) (colon_notMem s') hk
    exact absurd (split_at (colon_notMem a) hdash hk).1 (hissued a)
  · obtain ⟨ha, hk⟩ := split_at (colon_notMem a) (colon_notMem a') hk
    rw [identifier_ext ha, identifier_ext (split_at (colon_notMem a) (colon_notMem a') hk).2]

/-- A target without a reason has no login. -/
theorem involveLogin_of_none {t : ScmAudienceTarget π} (h : t.involveReason = none) : t.involveLogin = none := by
  obtain ⟨entry, context⟩ := t
  cases entry with
  | existing e => cases context with
    | none => rfl
    | some _ => exact nomatch h
  | personnel_target p => exact nomatch h
  | provider_task_target p => cases context with
    | none => rfl
    | some _ => exact nomatch h

/-- What the resolved targets of a route leave in its entry. -/
structure Gathered (actorHumanId : Option Identifier) (l : List (ScmAudienceTarget π × ResolvedScmChat)) (e : ScmDeliveryEntry π) :
    Prop where
  route : ∃ t ∈ l, entryRoute e = targetRoute t.1
  eligibility : ∃ t ∈ l, e.wakeEligibility = scmWakeEligibility t.1 actorHumanId t.2
  strongest : ∀ t ∈ l, wakeEligibilityRank e.wakeEligibility ≤ wakeEligibilityRank (scmWakeEligibility t.1 actorHumanId t.2)
  reasons : ∀ t ∈ l, ∀ reason ∈ t.1.reasons, reason ∈ e.reasons
  card : (e.involveReason = none ∧ e.involveLogin = none ∧ ∀ t ∈ l, t.1.involveReason = none) ∨
    ∃ t ∈ l, t.1.involveReason.isSome = true ∧ e.involveReason = t.1.involveReason ∧ e.involveLogin = t.1.involveLogin
  provider : ∀ t ∈ l, t.1.providerContext.isSome = true → e.providerContext.isSome = true

/-- The entry a first target makes. -/
theorem gathered_first (actorHumanId : Option Identifier) (t : ScmAudienceTarget π × ResolvedScmChat) :
    Gathered actorHumanId [t] (mergeDeliveryEntry actorHumanId none t) := by
  have honly : ∀ t' ∈ [t], t' = t := fun t' ht' => List.mem_singleton.mp ht'
  have hself : t ∈ [t] := List.mem_singleton.mpr rfl
  refine ⟨⟨t, hself, rfl⟩, ⟨t, hself, rfl⟩, fun t' ht' => ?_, fun t' ht' reason hreason => ?_, ?_, fun t' ht' hctx => ?_⟩
  · rw [honly t' ht']
    exact Nat.le_refl _
  · rw [honly t' ht'] at hreason
    exact hreason
  · cases hreason : t.1.involveReason with
    | none => exact Or.inl ⟨hreason, involveLogin_of_none hreason, fun t' ht' => (honly t' ht').symm ▸ hreason⟩
    | some r => exact Or.inr ⟨t, hself, by rw [hreason]; rfl, rfl, rfl⟩
  · rw [honly t' ht'] at hctx
    exact hctx

/-- The entry a further target joins. -/
theorem gathered_next {actorHumanId : Option Identifier} {l : List (ScmAudienceTarget π × ResolvedScmChat)} {e : ScmDeliveryEntry π}
    (h : Gathered actorHumanId l e) (t : ScmAudienceTarget π × ResolvedScmChat) :
    Gathered actorHumanId (l ++ [t]) (mergeDeliveryEntry actorHumanId (some e) t) := by
  have hself : t ∈ l ++ [t] := List.mem_append_right _ (List.mem_singleton.mpr rfl)
  have hold : ∀ {t'}, t' ∈ l → t' ∈ l ++ [t] := fun ht' => List.mem_append_left _ ht'
  have hcases : ∀ t' ∈ l ++ [t], t' ∈ l ∨ t' = t := fun t' ht' => (List.mem_append.mp ht').imp_right List.mem_singleton.mp
  refine ⟨?_, ?_, fun t' ht' => ?_, fun t' ht' reason hreason => ?_, ?_, fun t' ht' hctx => ?_⟩
  · obtain ⟨t', ht', hroute⟩ := h.route
    exact ⟨t', hold ht', hroute⟩
  · obtain ⟨t', ht', he⟩ := h.eligibility
    dsimp only [mergeDeliveryEntry]
    split
    · exact ⟨t, hself, rfl⟩
    · exact ⟨t', hold ht', he⟩
  · dsimp only [mergeDeliveryEntry]
    rcases hcases t' ht' with ht' | rfl
    · have hle := h.strongest t' ht'
      split <;> omega
    · split <;> omega
  · dsimp only [mergeDeliveryEntry]
    rcases hcases t' ht' with ht' | rfl
    · exact List.mem_append_left _ (h.reasons t' ht' reason hreason)
    · by_cases hin : reason ∈ e.reasons
      · exact List.mem_append_left _ hin
      · exact List.mem_append_right _ (List.mem_filter.mpr ⟨hreason, by simpa using hin⟩)
  · -- the reason of the target replaces one of a higher rank, or none
    cases hreason : t.1.involveReason with
    | none =>
      have hkeep : (mergeDeliveryEntry actorHumanId (some e) t).involveReason = e.involveReason ∧
          (mergeDeliveryEntry actorHumanId (some e) t).involveLogin = e.involveLogin := by
        simp [mergeDeliveryEntry, hreason]
      rw [hkeep.1, hkeep.2]
      rcases h.card with ⟨hr, hl, hnone⟩ | ⟨t', ht', hcard⟩
      · refine Or.inl ⟨hr, hl, fun t' ht' => ?_⟩
        rcases hcases t' ht' with ht' | rfl
        · exact hnone t' ht'
        · exact hreason
      · exact Or.inr ⟨t', hold ht', hcard⟩
    | some r =>
      refine Or.inr ?_
      rcases h.card with ⟨hr, hl, _⟩ | ⟨t', ht', hsome, hr, hl⟩
      · exact ⟨t, hself, by rw [hreason]; rfl, by simp [mergeDeliveryEntry, hreason, hr], by simp [mergeDeliveryEntry, hreason, hr]⟩
      · obtain ⟨c, hc⟩ := Option.isSome_iff_exists.mp hsome
        by_cases hlt : involveReasonRank r < involveReasonRank c
        · exact ⟨t, hself, by rw [hreason]; rfl, by simp [mergeDeliveryEntry, hreason, hr, hc, hlt],
            by simp [mergeDeliveryEntry, hreason, hr, hc, hlt]⟩
        · exact ⟨t', hold ht', hsome, by simp [mergeDeliveryEntry, hreason, hr, hc, hlt],
            by simp [mergeDeliveryEntry, hreason, hr, hl, hc, hlt]⟩
  · dsimp only [mergeDeliveryEntry]
    rcases hcases t' ht' with ht' | rfl
    · rw [Option.isSome_or, h.provider t' ht' hctx]
      rfl
    · rw [Option.isSome_or, hctx, Bool.or_true]

/-- The entry of a route has gathered its targets. -/
theorem gathered_of_gather {actorHumanId : Option Identifier} {l : List (ScmAudienceTarget π × ResolvedScmChat)}
    {e : ScmDeliveryEntry π} (h : OrderedMap.gather (mergeDeliveryEntry actorHumanId) l = some e) : Gathered actorHumanId l e :=
  OrderedMap.gather_induction (gathered_first actorHumanId) (fun _ t _ _ hb => gathered_next hb t) h

/-! ## The delivery of a chat -/

variable {ε : Type} {actorHumanId : Option Identifier} {resolveChat : ScmAudienceTarget π → Except ε (Option ResolvedScmChat)}
  {targets : List (ScmAudienceTarget π)}

/-- The targets that resolve to a chat, with what they resolve to. -/
def resolvedTargets (resolveChat : ScmAudienceTarget π → Except ε (Option ResolvedScmChat)) (targets : List (ScmAudienceTarget π)) :
    List (ScmAudienceTarget π × ResolvedScmChat) :=
  targets.filterMap fun t =>
    match resolveChat t with
    | .ok (some r) => some (t, r)
    | _ => none

/-- The targets that resolve to a chat. -/
theorem mem_resolvedTargets {t : ScmAudienceTarget π} {r : ResolvedScmChat} :
    (t, r) ∈ resolvedTargets resolveChat targets ↔ t ∈ targets ∧ resolveChat t = .ok (some r) := by
  rw [resolvedTargets, List.mem_filterMap]
  constructor
  · rintro ⟨t', ht', h⟩
    split at h
    · rename_i r' hr'
      obtain ⟨rfl, rfl⟩ := Prod.mk.inj (Option.some.inj h)
      exact ⟨ht', hr'⟩
    · exact nomatch h
  · rintro ⟨ht, hr⟩
    exact ⟨t, ht, by rw [hr]⟩

/-- The deliveries are those of the resolved targets, by chat. -/
theorem deliveries_eq (targets : List (ScmAudienceTarget π)) (actorHumanId : Option Identifier)
    (resolveChat : ScmAudienceTarget π → Except ε (Option ResolvedScmChat)) :
    (planScmChatDeliveries targets actorHumanId resolveChat).deliveries =
      OrderedMap.collect (fun t => t.2.chatId) (joinDelivery actorHumanId) (resolvedTargets resolveChat targets) := by
  induction targets using List.reverseRecOn with
  | nil => rfl
  | append_singleton targets t ih =>
    have hplan : planScmChatDeliveries (targets ++ [t]) actorHumanId resolveChat =
        planTarget actorHumanId resolveChat (planScmChatDeliveries targets actorHumanId resolveChat) t := by
      simp only [planScmChatDeliveries, List.foldl_append, List.foldl_cons, List.foldl_nil]
    have hresolved : resolvedTargets resolveChat (targets ++ [t]) =
        resolvedTargets resolveChat targets ++ resolvedTargets resolveChat [t] := List.filterMap_append
    have hcollect : ∀ l : List (ScmAudienceTarget π × ResolvedScmChat),
        OrderedMap.collect (fun t => t.2.chatId) (joinDelivery actorHumanId) (resolvedTargets resolveChat targets ++ l) =
        l.foldl (fun m a => m.upsert a.2.chatId fun o => joinDelivery actorHumanId o a)
          (OrderedMap.collect (fun t => t.2.chatId) (joinDelivery actorHumanId) (resolvedTargets resolveChat targets)) :=
      fun l => List.foldl_append
    rw [hplan, hresolved, hcollect, ← ih]
    cases hr : resolveChat t with
    | error err => simp only [planTarget, hr, resolvedTargets, List.filterMap_cons, List.filterMap_nil, List.foldl_nil]
    | ok resolved =>
      cases resolved with
      | none => simp only [planTarget, hr, resolvedTargets, List.filterMap_cons, List.filterMap_nil, List.foldl_nil]
      | some r =>
        simp only [planTarget, hr, resolvedTargets, List.filterMap_cons, List.filterMap_nil, List.foldl_cons, List.foldl_nil]

/-- The resolved targets of a chat. -/
def resolvedAt (resolveChat : ScmAudienceTarget π → Except ε (Option ResolvedScmChat)) (targets : List (ScmAudienceTarget π))
    (chat : Identifier) : List (ScmAudienceTarget π × ResolvedScmChat) :=
  (resolvedTargets resolveChat targets).filter fun t => t.2.chatId = chat

/-- The resolved targets of a chat. -/
theorem mem_resolvedAt {t : ScmAudienceTarget π × ResolvedScmChat} {chat : Identifier} :
    t ∈ resolvedAt resolveChat targets chat ↔ t.1 ∈ targets ∧ resolveChat t.1 = .ok (some t.2) ∧ t.2.chatId = chat := by
  obtain ⟨t, r⟩ := t
  rw [resolvedAt, List.mem_filter, mem_resolvedTargets, decide_eq_true_iff, and_assoc]

/-- A delivery has its chat's id, and the entries its targets collect. -/
theorem delivery_of_gather {l : List (ScmAudienceTarget π × ResolvedScmChat)} {d : ScmPlannedChatDelivery π}
    (h : OrderedMap.gather (joinDelivery actorHumanId) l = some d) :
    (∃ t ∈ l, d.chatId = t.2.chatId) ∧
      d.entries = OrderedMap.collect (fun t => deliveryEntryKey t.1) (mergeDeliveryEntry actorHumanId) l := by
  refine OrderedMap.gather_induction (P := fun l d => (∃ t ∈ l, d.chatId = t.2.chatId) ∧
    d.entries = OrderedMap.collect (fun t => deliveryEntryKey t.1) (mergeDeliveryEntry actorHumanId) l)
    (fun t => ⟨⟨t, List.mem_singleton.mpr rfl, rfl⟩, rfl⟩) (fun l t d _ hd => ?_) h
  obtain ⟨⟨t', ht', hchat⟩, hentries⟩ := hd
  refine ⟨⟨t', List.mem_append_left _ ht', hchat⟩, ?_⟩
  simp only [joinDelivery, hentries, OrderedMap.collect, List.foldl_append, List.foldl_cons, List.foldl_nil]

/-- The delivery of a chat gathers its resolved targets. -/
theorem get?_deliveries (chat : Identifier) :
    (planScmChatDeliveries targets actorHumanId resolveChat).deliveries.get? chat =
      OrderedMap.gather (joinDelivery actorHumanId) (resolvedAt resolveChat targets chat) := by
  rw [deliveries_eq, OrderedMap.get?_collect]
  rfl

section Delivery

variable {chat : Identifier} {d : ScmPlannedChatDelivery π}
  (hd : (planScmChatDeliveries targets actorHumanId resolveChat).deliveries.get? chat = some d)

include hd

/-- The delivery of a chat is under its own id. -/
theorem chatId_of_delivery : d.chatId = chat := by
  rw [get?_deliveries] at hd
  obtain ⟨⟨t, ht, hchat⟩, _⟩ := delivery_of_gather hd
  exact hchat.trans (mem_resolvedAt.mp ht).2.2

/-- The entry of a delivery under a key. -/
theorem get?_entries (k : String) : d.entries.get? k = OrderedMap.gather (mergeDeliveryEntry actorHumanId)
    ((resolvedAt resolveChat targets chat).filter fun t => deliveryEntryKey t.1 = k) := by
  rw [get?_deliveries] at hd
  rw [(delivery_of_gather hd).2, OrderedMap.get?_collect]

/-- Every entry of a delivery is under the key of its route, and has gathered the targets of that key. -/
theorem entry_spec {e : ScmDeliveryEntry π} (he : e ∈ d.entries.values) :
    d.entries.get? (routeKey (entryRoute e)) = some e ∧ Shaped (entryRoute e) ∧
      Gathered actorHumanId ((resolvedAt resolveChat targets chat).filter fun t => deliveryEntryKey t.1 =
        routeKey (entryRoute e)) e := by
  obtain ⟨k, hk⟩ := OrderedMap.mem_values.mp he
  have hgather := gathered_of_gather ((get?_entries hd k).symm.trans hk)
  obtain ⟨t, ht, hroute⟩ := hgather.route
  obtain rfl : routeKey (entryRoute e) = k := by
    rw [hroute, ← deliveryEntryKey_eq]
    exact of_decide_eq_true (List.mem_filter.mp ht).2
  exact ⟨hk, hroute ▸ shaped_targetRoute t.1, hgather⟩

/-- Two entries of a delivery with the same route are the same. -/
theorem entry_unique {e e' : ScmDeliveryEntry π} (he : e ∈ d.entries.values) (he' : e' ∈ d.entries.values)
    (h : entryRoute e = entryRoute e') : e = e' := by
  have hget := (entry_spec hd he).1
  rw [h, (entry_spec hd he').1] at hget
  exact (Option.some.inj hget).symm

/-- The targets of a key are those of one route. -/
theorem mem_filter_route {e : ScmDeliveryEntry π} (he : e ∈ d.entries.values) {t : ScmAudienceTarget π × ResolvedScmChat} :
    t ∈ ((resolvedAt resolveChat targets chat).filter fun t => deliveryEntryKey t.1 = routeKey (entryRoute e)) ↔
      t ∈ resolvedAt resolveChat targets chat ∧ targetRoute t.1 = entryRoute e := by
  rw [List.mem_filter, decide_eq_true_iff, deliveryEntryKey_eq]
  refine and_congr_right fun _ => ⟨fun h => ?_, fun h => congrArg routeKey h⟩
  exact routeKey_injective (shaped_targetRoute t.1) (entry_spec hd he).2.1 h

/-- Every resolved target of a chat has its entry in the delivery. -/
theorem exists_entry {t : ScmAudienceTarget π × ResolvedScmChat} (ht : t ∈ resolvedAt resolveChat targets chat) :
    ∃ e ∈ d.entries.values, entryRoute e = targetRoute t.1 := by
  cases hget : d.entries.get? (deliveryEntryKey t.1) with
  | none =>
    rw [get?_entries hd, OrderedMap.gather_eq_none] at hget
    exact absurd (List.mem_filter.mpr ⟨ht, decide_eq_true rfl⟩) (hget ▸ List.not_mem_nil)
  | some e =>
    have he : e ∈ d.entries.values := OrderedMap.mem_values.mpr ⟨_, hget⟩
    refine ⟨e, he, ?_⟩
    obtain ⟨t', ht', hroute⟩ := (gathered_of_gather ((get?_entries hd _).symm.trans hget)).route
    rw [hroute]
    exact routeKey_injective (shaped_targetRoute _) (shaped_targetRoute _) (of_decide_eq_true (List.mem_filter.mp ht').2)

end Delivery

/-- What the selections read of an entry. -/
def visible (e : ScmDeliveryEntry π) :
    (Identifier × Option Identifier × Option Identifier) × ScmWakeEligibility × Option InvolveReason × Option ExternalUsername :=
  (entryRoute e, e.wakeEligibility, e.involveReason, e.involveLogin)

/-- Two eligibilities of the same rank are the same. -/
theorem wakeEligibilityRank_injective {w w' : ScmWakeEligibility} (h : wakeEligibilityRank w = wakeEligibilityRank w') : w = w' := by
  cases w <;> cases w' <;> first | rfl | exact absurd h (by decide)

/-- The same targets, coherent, gather entries that look the same. -/
theorem visible_of_gathered {l l' : List (ScmAudienceTarget π × ResolvedScmChat)} {e e' : ScmDeliveryEntry π}
    (hmem : ∀ t, t ∈ l ↔ t ∈ l') (hcoherent : Coherent targets) (hin : ∀ t ∈ l, t.1 ∈ targets ∧ targetRoute t.1 = entryRoute e)
    (hroute : entryRoute e = entryRoute e') (h : Gathered actorHumanId l e) (h' : Gathered actorHumanId l' e') :
    visible e = visible e' := by
  have heligibility : e.wakeEligibility = e'.wakeEligibility := by
    obtain ⟨t, ht, hw⟩ := h.eligibility
    obtain ⟨t', ht', hw'⟩ := h'.eligibility
    have hle := h.strongest t' ((hmem t').mpr ht')
    have hle' := h'.strongest t ((hmem t).mp ht)
    rw [← hw'] at hle
    rw [← hw] at hle'
    exact wakeEligibilityRank_injective (Nat.le_antisymm hle hle')
  have hcard : e.involveReason = e'.involveReason ∧ e.involveLogin = e'.involveLogin := by
    rcases h.card with ⟨hr, hl, hnone⟩ | ⟨t, ht, hsome, hr, hl⟩ <;>
      rcases h'.card with ⟨hr', hl', hnone'⟩ | ⟨t', ht', hsome', hr', hl'⟩
    · exact ⟨hr.trans hr'.symm, hl.trans hl'.symm⟩
    · rw [hnone t' ((hmem t').mpr ht')] at hsome'
      exact absurd hsome' (by decide)
    · rw [hnone' t ((hmem t).mp ht)] at hsome
      exact absurd hsome (by decide)
    · obtain ⟨ht, hrt⟩ := hin t ht
      obtain ⟨ht', hrt'⟩ := hin t' ((hmem t').mpr ht')
      obtain ⟨hrr, hll⟩ := hcoherent t.1 ht t'.1 ht' (hrt.trans hrt'.symm) hsome hsome'
      exact ⟨(hr.trans hrr).trans hr'.symm, (hl.trans hll).trans hl'.symm⟩
  rw [visible, visible, hroute, heligibility, hcard.1, hcard.2]

/-- The same targets in another order plan, for a chat, entries that look the same. -/
theorem visible_of_same_targets {targets' : List (ScmAudienceTarget π)} (hsame : ∀ t, t ∈ targets' ↔ t ∈ targets)
    (hcoherent : Coherent targets) {chat : Identifier} {d d' : ScmPlannedChatDelivery π}
    (hd : (planScmChatDeliveries targets actorHumanId resolveChat).deliveries.get? chat = some d)
    (hd' : (planScmChatDeliveries targets' actorHumanId resolveChat).deliveries.get? chat = some d')
    {e : ScmDeliveryEntry π} (he : e ∈ d.entries.values) : ∃ e' ∈ d'.entries.values, visible e' = visible e := by
  obtain ⟨_, _, hgathered⟩ := entry_spec hd he
  obtain ⟨t, ht, hroute⟩ := hgathered.route
  have hat : ∀ t, t ∈ resolvedAt resolveChat targets' chat ↔ t ∈ resolvedAt resolveChat targets chat := fun t => by
    rw [mem_resolvedAt, mem_resolvedAt, hsame]
  obtain ⟨e', he', hroute'⟩ := exists_entry hd' ((hat t).mpr (List.mem_filter.mp ht).1)
  have hee : entryRoute e = entryRoute e' := hroute.trans hroute'.symm
  refine ⟨e', he', (visible_of_gathered (fun t => ?_) hcoherent (fun t ht => ?_) hee hgathered (entry_spec hd' he').2.2).symm⟩
  · rw [mem_filter_route hd he, mem_filter_route hd' he', hat, hee]
  · obtain ⟨ht, hr⟩ := (mem_filter_route hd he).mp ht
    exact ⟨(mem_resolvedAt.mp ht).1, hr⟩

/-! ## The selections -/

section Selections

variable {C : PlainCollation} {l l' : List (ScmDeliveryEntry π)}

/-- The order of the entries reads what is visible. -/
theorem compare_congr {rank : ScmDeliveryEntry π → Nat} (hrank : ∀ e e', visible e = visible e' → rank e = rank e')
    (a a' b : ScmDeliveryEntry π) (h : visible a = visible a') :
    (compare (rank a) (rank b)).then (compareScmDeliveryEntries C a b) =
      (compare (rank a') (rank b)).then (compareScmDeliveryEntries C a' b) := by
  have hr := hrank a a' h
  simp only [visible, entryRoute, Prod.mk.injEq] at h
  obtain ⟨⟨hs, hh, hw⟩, _⟩ := h
  rw [hr, compareScmDeliveryEntries, compareScmDeliveryEntries, hs, hh, hw]

/-- Two shaped entries that tie in the order of the entries have the same sender. -/
theorem sender_of_tie {a b : ScmDeliveryEntry π} (ha : Shaped (entryRoute a)) (hb : Shaped (entryRoute b))
    (h : compareScmDeliveryEntries C a b = .eq) : a.senderAgentId = b.senderAgentId := by
  have hsender : ∀ e : ScmDeliveryEntry π, Shaped (entryRoute e) → e.humanAgentId.getD e.senderAgentId = e.senderAgentId := by
    rintro e (⟨s, hs⟩ | ⟨h, w, hs⟩) <;> simp only [entryRoute, Prod.mk.injEq] at hs <;> obtain ⟨rfl, hh, _⟩ := hs <;> rw [hh]
    · exact Option.getD_none
    · exact Option.getD_some
  obtain ⟨htie, _⟩ := Ordering.then_eq_eq.mp h
  rw [hsender a ha, hsender b hb] at htie
  exact identifier_ext (congrArg String.toList (C.separates _ _ a.senderAgentId.plain b.senderAgentId.plain htie))

/-- Two entries that tie in the order of the entries, and have a wake agent, have the same route. -/
theorem route_of_tie {a b : ScmDeliveryEntry π} {h w h' w' : Identifier} (ha : entryRoute a = (h, some h, some w))
    (hb : entryRoute b = (h', some h', some w')) (htie : compareScmDeliveryEntries C a b = .eq) : entryRoute a = entryRoute b := by
  have hsender := sender_of_tie (Or.inr ⟨h, w, ha⟩) (Or.inr ⟨h', w', hb⟩) htie
  obtain ⟨_, hwake⟩ := Ordering.then_eq_eq.mp htie
  simp only [entryRoute, Prod.mk.injEq] at ha hb
  obtain ⟨hs, _, hw⟩ := ha
  obtain ⟨hs', _, hw'⟩ := hb
  rw [hw, hw'] at hwake
  have hww := identifier_ext (congrArg String.toList (C.separates _ _ w.plain w'.plain hwake))
  rw [hs, hs'] at hsender
  simp_all [entryRoute]

/-- Entries that look the same select the same sender. -/
theorem selectScmSenderId_congr (hl : ∀ e ∈ l, ∃ e' ∈ l', visible e' = visible e) (hl' : ∀ e' ∈ l', ∃ e ∈ l, visible e = visible e')
    (hshaped : ∀ e ∈ l, Shaped (entryRoute e)) (hshaped' : ∀ e ∈ l', Shaped (entryRoute e)) :
    selectScmSenderId C l = selectScmSenderId C l' := by
  have hcmp := transCmp_ranked C fun e : ScmDeliveryEntry π => wakeEligibilityRank e.wakeEligibility
  have hrank : ∀ e e' : ScmDeliveryEntry π, visible e = visible e' →
      wakeEligibilityRank e.wakeEligibility = wakeEligibilityRank e'.wakeEligibility := fun e e' h =>
    congrArg (fun v => wakeEligibilityRank v.2.1) h
  unfold selectScmSenderId
  cases ha : (ComparatorSort.sortBy (compareForSender C) l).head? with
  | none =>
    obtain rfl := ComparatorSort.head_sortBy_none.mp ha
    have hnil : l' = [] := List.eq_nil_iff_forall_not_mem.mpr fun e' he' => by
      obtain ⟨e, he, _⟩ := hl' e' he'
      exact absurd he List.not_mem_nil
    subst hnil
    rw [ha]
  | some a =>
    cases ha' : (ComparatorSort.sortBy (compareForSender C) l').head? with
    | none =>
      obtain rfl := ComparatorSort.head_sortBy_none.mp ha'
      obtain ⟨e', he', _⟩ := hl a (ComparatorSort.head_sortBy hcmp ha).1
      exact absurd he' List.not_mem_nil
    | some a' =>
      have htie := ComparatorSort.head_tie hcmp (compare_congr hrank) hl hl' ha ha'
      have hsender := sender_of_tie (hshaped a (ComparatorSort.head_sortBy hcmp ha).1)
        (hshaped' a' (ComparatorSort.head_sortBy hcmp ha').1) (Ordering.then_eq_eq.mp htie).2
      exact congrArg Except.ok hsender

/-- Entries that look the same, one for each route, select the same card. -/
theorem selectScmCardContext_congr (hl : ∀ e ∈ l, ∃ e' ∈ l', visible e' = visible e)
    (hl' : ∀ e' ∈ l', ∃ e ∈ l, visible e = visible e') (hone : ∀ e ∈ l, ∀ e' ∈ l, entryRoute e = entryRoute e' → e = e')
    (hpair : ∀ e ∈ l, e.involveReason.isSome = true → ∃ h w, entryRoute e = (h, some h, some w)) :
    selectScmCardContext C l = selectScmCardContext C l' := by
  have hcmp := transCmp_ranked C (entryReasonRank (π := π))
  have hreason : ∀ e e' : ScmDeliveryEntry π, visible e = visible e' → e.involveReason = e'.involveReason := fun e e' h =>
    congrArg (fun v => v.2.2.1) h
  have hrank : ∀ e e' : ScmDeliveryEntry π, visible e = visible e' → entryReasonRank e = entryReasonRank e' := fun e e' h => by
    rw [entryReasonRank, hreason e e' h, entryReasonRank]
  have hfilter : ∀ {m m' : List (ScmDeliveryEntry π)}, (∀ e ∈ m, ∃ e' ∈ m', visible e' = visible e) →
      ∀ e ∈ m.filter fun e => e.involveReason.isSome, ∃ e' ∈ m'.filter fun e => e.involveReason.isSome, visible e' = visible e := by
    intro m m' hm e he
    obtain ⟨he, hsome⟩ := List.mem_filter.mp he
    obtain ⟨e', he', hv⟩ := hm e he
    exact ⟨e', List.mem_filter.mpr ⟨he', by rw [hreason e' e hv]; exact hsome⟩, hv⟩
  have hfl := hfilter hl
  have hfl' := hfilter hl'
  unfold selectScmCardContext
  cases ha : (ComparatorSort.sortBy (compareForCard C) (l.filter fun e => e.involveReason.isSome)).head? with
  | none =>
    cases ha' : (ComparatorSort.sortBy (compareForCard C) (l'.filter fun e => e.involveReason.isSome)).head? with
    | none => rfl
    | some a' =>
      obtain ⟨e, he, _⟩ := hfl' a' (ComparatorSort.head_sortBy hcmp ha').1
      rw [ComparatorSort.head_sortBy_none.mp ha] at he
      exact absurd he List.not_mem_nil
  | some a =>
    obtain ⟨hmem, _⟩ := ComparatorSort.head_sortBy hcmp ha
    cases ha' : (ComparatorSort.sortBy (compareForCard C) (l'.filter fun e => e.involveReason.isSome)).head? with
    | none =>
      obtain ⟨e', he', _⟩ := hfl a hmem
      rw [ComparatorSort.head_sortBy_none.mp ha'] at he'
      exact absurd he' List.not_mem_nil
    | some a' =>
      -- the entry of the first list that looks like the second's first has the route of the first list's first
      obtain ⟨b, hb, hv⟩ := hfl' a' (ComparatorSort.head_sortBy hcmp ha').1
      obtain ⟨hal, hasome⟩ := List.mem_filter.mp hmem
      obtain ⟨hbl, hbsome⟩ := List.mem_filter.mp hb
      obtain ⟨h, w, har⟩ := hpair a hal hasome
      obtain ⟨h', w', hbr⟩ := hpair b hbl hbsome
      have htie := (Ordering.then_eq_eq.mp (ComparatorSort.head_tie hcmp (compare_congr hrank) hfl hfl' ha ha')).2
      have hroute' : entryRoute b = entryRoute a' := congrArg Prod.fst hv
      have hab := route_of_tie har (hroute'.symm.trans hbr) htie
      obtain rfl := hone a hal b hbl (hab.trans hroute'.symm)
      have hlogin : a.involveLogin = a'.involveLogin := congrArg (fun v => v.2.2.2) hv
      exact Prod.ext (hreason a a' hv) hlogin

/-- The agents that the entries wake. -/
theorem mem_scmWakeAgentIds {id : String} :
    id ∈ scmWakeAgentIds l ↔ ∃ e ∈ l, e.wakeEligibility = .eligible ∧ ∃ w, e.wakeAgentId = some w ∧ w.text = id := by
  simp only [scmWakeAgentIds, List.mem_insertionSort, List.mem_dedup, List.mem_flatMap]
  refine exists_congr fun e => and_congr_right fun _ => ?_
  by_cases he : e.wakeEligibility = .eligible
  · rw [if_pos he]
    simp [he]
  · rw [if_neg he]
    simp [he]

/-- The wake list is sorted and has no agent twice. -/
theorem sorted_scmWakeAgentIds (l : List (ScmDeliveryEntry π)) :
    (scmWakeAgentIds l).Pairwise (· ≤ ·) ∧ (scmWakeAgentIds l).Nodup :=
  ⟨List.pairwise_insertionSort _ _, (List.perm_insertionSort _ _).nodup_iff.mpr (List.nodup_dedup _)⟩

/-- Entries that look the same wake the same agents. -/
theorem scmWakeAgentIds_congr (hl : ∀ e ∈ l, ∃ e' ∈ l', visible e' = visible e)
    (hl' : ∀ e' ∈ l', ∃ e ∈ l, visible e = visible e') : scmWakeAgentIds l = scmWakeAgentIds l' := by
  have hsub : ∀ {m m' : List (ScmDeliveryEntry π)}, (∀ e ∈ m, ∃ e' ∈ m', visible e' = visible e) →
      ∀ id ∈ scmWakeAgentIds m, id ∈ scmWakeAgentIds m' := by
    intro m m' hm id hid
    obtain ⟨e, he, hw, w, hwake, hid⟩ := mem_scmWakeAgentIds.mp hid
    obtain ⟨e', he', hv⟩ := hm e he
    refine mem_scmWakeAgentIds.mpr ⟨e', he', ?_, w, ?_, hid⟩
    · exact (congrArg (fun v => v.2.1) hv : e'.wakeEligibility = e.wakeEligibility).trans hw
    · exact (congrArg (fun v => v.1.2.2) hv : e'.wakeAgentId = e.wakeAgentId).trans hwake
  obtain ⟨hsorted, hnodup⟩ := sorted_scmWakeAgentIds l
  obtain ⟨hsorted', hnodup'⟩ := sorted_scmWakeAgentIds l'
  have hperm : (scmWakeAgentIds l).Perm (scmWakeAgentIds l') :=
    (List.perm_ext_iff_of_nodup hnodup hnodup').mpr fun id => ⟨hsub hl id, hsub hl' id⟩
  exact hperm.eq_of_pairwise (fun _ _ _ _ h h' => String.le_antisymm h h') hsorted hsorted'

end Selections

/-- A target is woken unless it is a legacy route or an echo. -/
theorem scmWakeEligibility_eq_eligible {t : ScmAudienceTarget π} {r : ResolvedScmChat} :
    scmWakeEligibility t actorHumanId r = .eligible ↔ t.isLegacyRoute = false ∧ ¬ IsOwnExistingLine actorHumanId t r := by
  have hecho : ((t.isExistingLine || r.personnelLineExisted == some true) && actorHumanId.isSome
      && scmTargetHumanAgentId t == actorHumanId) = true ↔ IsOwnExistingLine actorHumanId t r := by
    rw [IsOwnExistingLine, Bool.and_eq_true, Bool.and_eq_true, Bool.or_eq_true, beq_iff_eq, beq_iff_eq, and_assoc]
    refine and_congr_right fun _ => ?_
    constructor
    · rintro ⟨hsome, heq⟩
      obtain ⟨h, hh⟩ := Option.isSome_iff_exists.mp hsome
      exact ⟨h, hh, heq.trans hh⟩
    · rintro ⟨h, hh, heq⟩
      exact ⟨by rw [hh]; rfl, heq.trans hh.symm⟩
  unfold scmWakeEligibility
  by_cases hl : t.isLegacyRoute = true
  · simp [hl]
  · rw [if_neg hl]
    by_cases he : IsOwnExistingLine actorHumanId t r
    · rw [if_pos (hecho.mpr he)]
      simp [he]
    · rw [if_neg fun h => he (hecho.mp h)]
      simpa [he] using hl

/-- A plan of coherent targets is complete. -/
theorem planComplete_of_coherent (hcoherent : Coherent targets) : PlanComplete targets actorHumanId resolveChat := by
  have hkeys : ∀ chat, chat ∈ (planScmChatDeliveries targets actorHumanId resolveChat).deliveries.keys ↔
      resolvedAt resolveChat targets chat ≠ [] := fun chat => by
    rw [OrderedMap.mem_keys, get?_deliveries, ← Option.isSome_iff_exists, Option.isSome_iff_ne_none, ne_eq, OrderedMap.gather_eq_none]
  refine ⟨(planScmChatDeliveries targets actorHumanId resolveChat).deliveries.nodup, fun chat => ?_,
    fun chat d hd => chatId_of_delivery hd, fun t ht r hr => ?_, fun chat d hd => ⟨(sorted_scmWakeAgentIds _).2, fun id => ?_⟩⟩
  · rw [hkeys]
    constructor
    · intro hne
      obtain ⟨⟨t, r⟩, ht⟩ := List.exists_mem_of_ne_nil _ hne
      obtain ⟨ht, hr, hchat⟩ := mem_resolvedAt.mp ht
      exact ⟨t, ht, r, hr, hchat⟩
    · rintro ⟨t, ht, r, hr, hchat⟩
      exact List.ne_nil_of_mem (mem_resolvedAt.mpr ⟨ht, hr, hchat⟩ : (t, r) ∈ _)
  · have hat : (t, r) ∈ resolvedAt resolveChat targets r.chatId := mem_resolvedAt.mpr ⟨ht, hr, rfl⟩
    obtain ⟨d, hd⟩ := OrderedMap.mem_keys.mp ((hkeys r.chatId).mpr (List.ne_nil_of_mem hat))
    obtain ⟨e, he, hroute⟩ := exists_entry hd hat
    obtain ⟨_, _, hgathered⟩ := entry_spec hd he
    have hin := (mem_filter_route hd he).mpr ⟨hat, hroute.symm⟩
    refine ⟨d, hd, e, he, congrArg Prod.fst hroute, congrArg (fun v => v.2.1) hroute, congrArg (fun v => v.2.2) hroute,
      hgathered.strongest _ hin, hgathered.reasons _ hin, fun hsome => ?_, hgathered.provider _ hin⟩
    rcases hgathered.card with ⟨_, _, hnone⟩ | ⟨t', ht', hsome', hreason, hlogin⟩
    · rw [hnone _ hin] at hsome
      exact absurd hsome (by decide)
    · obtain ⟨hat', hroute'⟩ := (mem_filter_route hd he).mp ht'
      obtain ⟨hrr, hll⟩ := hcoherent t ht t'.1 (mem_resolvedAt.mp hat').1 (hroute.symm.trans hroute'.symm) hsome hsome'
      exact ⟨hreason.trans hrr.symm, hlogin.trans hll.symm⟩
  · rw [mem_scmWakeAgentIds]
    constructor
    · rintro ⟨e, he, helig, w, hwake, hid⟩
      obtain ⟨_, _, hgathered⟩ := entry_spec hd he
      obtain ⟨t, ht, hw⟩ := hgathered.eligibility
      obtain ⟨hat, hroute⟩ := (mem_filter_route hd he).mp ht
      obtain ⟨hin, hr, hchat⟩ := mem_resolvedAt.mp hat
      obtain ⟨hlegacy, hecho⟩ := scmWakeEligibility_eq_eligible.mp (hw.symm.trans helig)
      exact ⟨t.1, hin, t.2, hr, hchat, hlegacy, hecho, w, (congrArg (fun v => v.2.2) hroute).trans hwake, hid⟩
    · rintro ⟨t, ht, r, hr, hchat, hlegacy, hecho, w, hwake, hid⟩
      have hat : (t, r) ∈ resolvedAt resolveChat targets chat := mem_resolvedAt.mpr ⟨ht, hr, hchat⟩
      obtain ⟨e, he, hroute⟩ := exists_entry hd hat
      have hle := (entry_spec hd he).2.2.strongest _ ((mem_filter_route hd he).mpr ⟨hat, hroute.symm⟩)
      rw [scmWakeEligibility_eq_eligible.mpr ⟨hlegacy, hecho⟩] at hle
      exact ⟨e, he, wakeEligibilityRank_injective (Nat.le_zero.mp hle), w, (congrArg (fun v => v.2.2) hroute).trans hwake, hid⟩

/-- Two orders of the same coherent targets plan the same cards for the same chats. -/
theorem samePlan_of_same_targets {C : PlainCollation} {targets' : List (ScmAudienceTarget π)}
    (hsame : ∀ t, t ∈ targets' ↔ t ∈ targets)
    (hcoherent : Coherent targets) (hpair : ∀ t ∈ targets, t.involveReason.isSome = true → ∃ h w,
      targetRoute t = (h, some h, some w)) :
    SamePlan C (planScmChatDeliveries targets actorHumanId resolveChat)
      (planScmChatDeliveries targets' actorHumanId resolveChat) := by
  have hcoherent' : Coherent targets' := fun t ht t' ht' => hcoherent t ((hsame t).mp ht) t' ((hsame t').mp ht')
  refine ⟨fun chat => ?_, fun chat d d' hd hd' => ?_⟩
  · rw [(planComplete_of_coherent hcoherent).chats, (planComplete_of_coherent hcoherent').chats]
    simp only [hsame]
  · have hl : ∀ e ∈ d.entries.values, ∃ e' ∈ d'.entries.values, visible e' = visible e := fun e he =>
      visible_of_same_targets hsame hcoherent hd hd' he
    have hl' : ∀ e' ∈ d'.entries.values, ∃ e ∈ d.entries.values, visible e = visible e' := fun e' he' =>
      visible_of_same_targets (fun t => (hsame t).symm) hcoherent' hd' hd he'
    refine ⟨selectScmSenderId_congr hl hl' (fun e he => (entry_spec hd he).2.1) (fun e he => (entry_spec hd' he).2.1),
      scmWakeAgentIds_congr hl hl', selectScmCardContext_congr hl hl' (fun e he e' he' => entry_unique hd he he')
        fun e he hsome => ?_⟩
    rcases (entry_spec hd he).2.2.card with ⟨hnone, _⟩ | ⟨t, ht, htsome, _⟩
    · rw [hnone] at hsome
      exact absurd hsome (by decide)
    · obtain ⟨hat, hroute⟩ := (mem_filter_route hd he).mp ht
      obtain ⟨h, w, hshape⟩ := hpair t.1 (mem_resolvedAt.mp hat).1 htsome
      exact ⟨h, w, hroute.symm.trans hshape⟩

end ScmDeliveryAux

open ScmDeliveryAux

/-- For every audience that `composeScmAudience` composes and every resolution of its targets, the plan has one delivery for each
resolved chat, represents every resolved target in it, wakes the agents of the targets that are neither legacy routes nor lines
the actor already had, and sends the same cards to the same chats whatever the order of the existing entries and the personnel
targets. -/
theorem scm_deliveries_complete_and_order_free {π ε : Type} (C : PlainCollation) (existingEntries : List ExistingScmAudienceEntry)
    (personnelTargets : List ScmPersonnelTarget) (providerTaskTargets : List (ScmProviderTaskTarget π))
    (actorHumanId : Option Identifier)
    (resolveChat : ScmAudienceTarget π → Except ε (Option ResolvedScmChat)) :
    PlanComplete (composeScmAudience C existingEntries personnelTargets providerTaskTargets) actorHumanId resolveChat ∧
      ∀ existingEntries' personnelTargets', existingEntries'.Perm existingEntries ∧ personnelTargets'.Perm personnelTargets →
        SamePlan C
          (planScmChatDeliveries (composeScmAudience C existingEntries personnelTargets providerTaskTargets) actorHumanId resolveChat)
          (planScmChatDeliveries (composeScmAudience C existingEntries' personnelTargets' providerTaskTargets) actorHumanId
            resolveChat) := by
  have hcoherent := coherent_composeScmAudience C existingEntries personnelTargets providerTaskTargets
  refine ⟨planComplete_of_coherent hcoherent, fun existingEntries' personnelTargets' h => ?_⟩
  refine samePlan_of_same_targets (mem_composeScmAudience_perm h.1 h.2 providerTaskTargets) hcoherent fun t ht hsome => ?_
  obtain ⟨h, w, _, hroute, _⟩ := involved_of_mem ht hsome
  exact ⟨h, w, hroute⟩

/-- The order of the code points, which tells any two texts apart. -/
def codePointCollation : PlainCollation where
  localeCompare := compare
  trans := String.instTransOrd
  separates _ _ _ _ h := Std.LawfulEqCmp.eq_of_compare h

/-- The reviewer's own line keeps its card and loses its wake. -/
example :
    let h : Identifier := ⟨"h", by decide, by decide, by decide⟩
    let w : Identifier := ⟨"w", by decide, by decide, by decide⟩
    let c : Identifier := ⟨"c", by decide, by decide, by decide⟩
    let user : ExternalUsername := ⟨"u", by decide⟩
    let plan : ScmDeliveryPlan Unit Unit := planScmChatDeliveries
      (composeScmAudience codePointCollation [.existing_line ⟨h, w, c, .explicit⟩] [⟨.review_requested, false, h, w, user⟩] [])
      (some h) fun _ => .ok (some ⟨c, false, none⟩)
    (plan.deliveries.get? c).map
      (fun d => (scmWakeAgentIds d.entries.values, selectScmCardContext codePointCollation d.entries.values)) =
      some ([], some .review_requested, some user) := by decide

end FirstTree
