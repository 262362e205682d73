import FirstTree.Lib.ComparatorSort
import FirstTree.Lib.OrderedMap
import Mathlib.Data.List.Lex

/-!
# Who an SCM event is delivered to

`composeScmAudience`, which merges the lines that follow an entity with the persons an event names, and `planScmChatDeliveries`, which
resolves each target to a chat and gathers the targets of a chat in one delivery. The provider's context of a task and the error of a
resolution are opaque.
-/

namespace FirstTree

/-! ## Identifiers and reasons -/

/-- A character of the identifiers the server issues and of the usernames the providers allow. -/
def isPlainChar (c : Char) : Bool := c.isAlphanum || c == '_' || c == '.' || c == '-'

/-- A text of such characters alone. -/
def isPlain (s : String) : Bool := s.toList.all isPlainChar

/-- The username of a person at a provider. -/
structure ExternalUsername where
  text : String
  plain : isPlain text = true
  deriving DecidableEq

/-- The id of an agent or a chat: a plain text that is neither empty nor the dash that stands for no agent. -/
structure Identifier where
  text : String
  plain : isPlain text = true
  filled : text ≠ ""
  issued : text ≠ "-"
  deriving DecidableEq

/-- `localeCompare` in the server's locale, as the planner relies on it: a total preorder in which two plain texts tie only when they
are the same. -/
structure PlainCollation where
  localeCompare : String → String → Ordering
  trans : Std.TransCmp localeCompare
  separates : ∀ a b, isPlain a = true → isPlain b = true → localeCompare a b = .eq → a = b

/-- `InvolveReason`. -/
inductive InvolveReason where
  | mentioned | review_requested | assigned
  deriving DecidableEq, Repr

/-- `involveReasonRank`. -/
def involveReasonRank : InvolveReason → Nat
  | .review_requested => 0
  | .mentioned => 1
  | .assigned => 2

/-- `ScmAttentionProvenance`. -/
inductive ScmAttentionProvenance where
  | explicit | identity_target | related_entity
  deriving DecidableEq, Repr

/-- The text of a provenance. -/
def ScmAttentionProvenance.text : ScmAttentionProvenance → String
  | .explicit => "explicit"
  | .identity_target => "identity_target"
  | .related_entity => "related_entity"

/-! ## Targets -/

/-- `ScmAttentionLine`. -/
structure ScmAttentionLine where
  humanAgentId : Identifier
  wakeAgentId : Identifier
  chatId : Identifier
  provenance : ScmAttentionProvenance
  deriving DecidableEq

/-- `ScmLegacyRoute`. Its provenance is always `legacy_explicit` and it wakes no agent. -/
structure ScmLegacyRoute where
  chatId : Identifier
  senderAgentId : Identifier
  deriving DecidableEq

/-- `ExistingScmAudienceEntry`. -/
inductive ExistingScmAudienceEntry where
  | existing_line (line : ScmAttentionLine)
  | legacy_route (route : ScmLegacyRoute)
  deriving DecidableEq

/-- `ScmPersonnelTarget`. -/
structure ScmPersonnelTarget where
  reason : InvolveReason
  requiresPersistentLine : Bool
  humanAgentId : Identifier
  wakeAgentId : Identifier
  externalUsername : ExternalUsername
  deriving DecidableEq

/-- `ScmDirectedContext`. -/
structure ScmDirectedContext where
  reason : InvolveReason
  requiresPersistentLine : Bool
  externalUsername : ExternalUsername
  deriving DecidableEq

/-- `ScmProviderTaskTarget`. -/
structure ScmProviderTaskTarget (π : Type) where
  humanAgentId : Identifier
  wakeAgentId : Identifier
  providerContext : π

/-- The entry of a target. -/
inductive ScmTargetEntry (π : Type) where
  | existing (entry : ExistingScmAudienceEntry)
  | personnel_target (target : ScmPersonnelTarget)
  | provider_task_target (target : ScmProviderTaskTarget π)

/-- `ScmAudienceTarget`. -/
structure ScmAudienceTarget (π : Type) where
  entry : ScmTargetEntry π
  directedContext : Option ScmDirectedContext

/-! ## Composing the audience -/

/-- `existingEntryKey`. -/
def existingEntryKey : ExistingScmAudienceEntry → String
  | .existing_line line =>
    ":".intercalate ["line", line.humanAgentId.text, line.wakeAgentId.text, line.chatId.text, line.provenance.text]
  | .legacy_route route => ":".intercalate ["legacy", route.chatId.text, route.senderAgentId.text, "legacy_explicit"]

/-- `attentionPairKey`. -/
def attentionPairKey (humanAgentId wakeAgentId : Identifier) : String := humanAgentId.text ++ "\x00" ++ wakeAgentId.text

/-- The pair of a personnel target. -/
def ScmPersonnelTarget.pair (target : ScmPersonnelTarget) : String := attentionPairKey target.humanAgentId target.wakeAgentId

/-- The loop over the existing entries: the targets, and the keys seen. -/
def dedupExisting (π : Type) (entries : List ExistingScmAudienceEntry) : List (ScmAudienceTarget π) × List String :=
  entries.foldl (fun state entry =>
    if state.2.contains (existingEntryKey entry) then state
    else (state.1 ++ [{ entry := .existing entry, directedContext := none }], state.2 ++ [existingEntryKey entry])) ([], [])

/-- `comparePersonnelTargets`. -/
def comparePersonnelTargets (C : PlainCollation) (a b : ScmPersonnelTarget) : Ordering :=
  (compare (involveReasonRank a.reason) (involveReasonRank b.reason)).then
    (C.localeCompare a.externalUsername.text b.externalUsername.text)

/-- One target joins what its pair has so far. -/
def mergePersonnel (C : PlainCollation) (current : Option ScmPersonnelTarget) (target : ScmPersonnelTarget) : ScmPersonnelTarget :=
  match current with
  | none => target
  | some current =>
    let displayTarget := if comparePersonnelTargets C target current = .lt then target else current
    { displayTarget with requiresPersistentLine := current.requiresPersistentLine || target.requiresPersistentLine }

/-- `personnelByPair`. -/
def personnelByPair (C : PlainCollation) (targets : List ScmPersonnelTarget) : OrderedMap String ScmPersonnelTarget :=
  OrderedMap.collect ScmPersonnelTarget.pair (mergePersonnel C) targets

/-- The pair of an existing line. -/
def ScmAudienceTarget.linePair {π : Type} (target : ScmAudienceTarget π) : Option String :=
  match target.entry with
  | .existing (.existing_line line) => some (attentionPairKey line.humanAgentId line.wakeAgentId)
  | _ => none

/-- The context a line takes from the personnel target of its pair. -/
def ScmPersonnelTarget.context (target : ScmPersonnelTarget) : ScmDirectedContext :=
  { reason := target.reason, requiresPersistentLine := target.requiresPersistentLine, externalUsername := target.externalUsername }

/-- A target, with the context of a pair when it is a line of that pair. -/
def ScmAudienceTarget.attach {π : Type} (e : String × ScmPersonnelTarget) (target : ScmAudienceTarget π) : ScmAudienceTarget π :=
  if target.linePair = some e.1 then { target with directedContext := some e.2.context } else target

/-- The loop over the pairs: a pair is the context of the lines it matches, else a target of its own. -/
def attachPersonnel {π : Type} (targets : List (ScmAudienceTarget π)) (e : String × ScmPersonnelTarget) :
    List (ScmAudienceTarget π) :=
  if targets.any fun target => target.linePair = some e.1 then targets.map (ScmAudienceTarget.attach e)
  else targets ++ [{ entry := .personnel_target e.2, directedContext := none }]

/-- `composeScmAudience`. -/
def composeScmAudience {π : Type} (C : PlainCollation) (existingEntries : List ExistingScmAudienceEntry)
    (personnelTargets : List ScmPersonnelTarget) (providerTaskTargets : List (ScmProviderTaskTarget π)) :
    List (ScmAudienceTarget π) :=
  let sorted := ComparatorSort.sortBy (fun a b => C.localeCompare a.1 b.1) (personnelByPair C personnelTargets).entries
  sorted.foldl attachPersonnel (dedupExisting π existingEntries).1
    ++ providerTaskTargets.map fun target => { entry := .provider_task_target target, directedContext := none }

/-! ## Planning the deliveries -/

/-- `ScmWakeEligibility`. -/
inductive ScmWakeEligibility where
  | eligible | actor_echo_suppressed | route_only
  deriving DecidableEq, Repr

/-- `wakeEligibilityRank`. -/
def wakeEligibilityRank : ScmWakeEligibility → Nat
  | .eligible => 0
  | .actor_echo_suppressed => 1
  | .route_only => 2

/-- `"follow" | InvolveReason`. -/
inductive ScmDeliveryReason where
  | follow
  | involve (reason : InvolveReason)
  deriving DecidableEq

/-- `ScmDeliveryEntry`. -/
structure ScmDeliveryEntry (π : Type) where
  senderAgentId : Identifier
  humanAgentId : Option Identifier
  wakeAgentId : Option Identifier
  wakeEligibility : ScmWakeEligibility
  reasons : List ScmDeliveryReason
  involveReason : Option InvolveReason
  involveLogin : Option ExternalUsername
  providerContext : Option π

/-- `ScmPlannedChatDelivery`. -/
structure ScmPlannedChatDelivery (π : Type) where
  chatId : Identifier
  created : Bool
  entries : OrderedMap String (ScmDeliveryEntry π)

/-- `ResolvedScmChat`. -/
structure ResolvedScmChat where
  chatId : Identifier
  created : Bool
  personnelLineExisted : Option Bool

section Target

variable {π : Type} (target : ScmAudienceTarget π)

/-- `scmTargetHumanAgentId`. -/
def scmTargetHumanAgentId : Option Identifier :=
  match target.entry with
  | .existing (.existing_line line) => some line.humanAgentId
  | .existing (.legacy_route _) => none
  | .personnel_target t => some t.humanAgentId
  | .provider_task_target t => some t.humanAgentId

/-- `scmTargetWakeAgentId`. -/
def scmTargetWakeAgentId : Option Identifier :=
  match target.entry with
  | .existing (.existing_line line) => some line.wakeAgentId
  | .existing (.legacy_route _) => none
  | .personnel_target t => some t.wakeAgentId
  | .provider_task_target t => some t.wakeAgentId

/-- `scmTargetSenderAgentId`. -/
def scmTargetSenderAgentId : Identifier :=
  match target.entry with
  | .existing (.existing_line line) => line.humanAgentId
  | .existing (.legacy_route route) => route.senderAgentId
  | .personnel_target t => t.humanAgentId
  | .provider_task_target t => t.humanAgentId

/-- Whether the entry of a target is a legacy route. -/
def ScmAudienceTarget.isLegacyRoute : Bool :=
  match target.entry with
  | .existing (.legacy_route _) => true
  | _ => false

/-- Whether the entry of a target is an existing line. -/
def ScmAudienceTarget.isExistingLine : Bool :=
  match target.entry with
  | .existing (.existing_line _) => true
  | _ => false

/-- `involveReason` of a target. -/
def ScmAudienceTarget.involveReason : Option InvolveReason :=
  match target.entry with
  | .personnel_target t => some t.reason
  | _ => target.directedContext.map (·.reason)

/-- `involveLogin` of a target. -/
def ScmAudienceTarget.involveLogin : Option ExternalUsername :=
  match target.entry with
  | .personnel_target t => some t.externalUsername
  | _ => target.directedContext.map (·.externalUsername)

/-- `providerContext` of a target. -/
def ScmAudienceTarget.providerContext : Option π :=
  match target.entry with
  | .provider_task_target t => some t.providerContext
  | _ => none

/-- `reasons` of a target. -/
def ScmAudienceTarget.reasons : List ScmDeliveryReason :=
  (match target.entry with
    | .existing _ => [.follow]
    | _ => []) ++ (target.involveReason.map .involve).toList

/-- `scmWakeEligibility`. -/
def scmWakeEligibility (actorHumanId : Option Identifier) (resolved : ResolvedScmChat) : ScmWakeEligibility :=
  if target.isLegacyRoute then .route_only
  else if (target.isExistingLine || resolved.personnelLineExisted == some true) && actorHumanId.isSome
      && scmTargetHumanAgentId target == actorHumanId then .actor_echo_suppressed
  else .eligible

/-- The key of the entry of a target. -/
def deliveryEntryKey : String :=
  (scmTargetSenderAgentId target).text ++ ":" ++ (((scmTargetHumanAgentId target).map (·.text)).getD "-") ++ ":"
    ++ (((scmTargetWakeAgentId target).map (·.text)).getD "-")

/-- `addScmDeliveryEntry` at the key of the target. -/
def mergeDeliveryEntry (actorHumanId : Option Identifier) (existing : Option (ScmDeliveryEntry π))
    (t : ScmAudienceTarget π × ResolvedScmChat) : ScmDeliveryEntry π :=
  let wakeEligibility := scmWakeEligibility t.1 actorHumanId t.2
  match existing with
  | some existing =>
    let outranks : Bool :=
      match t.1.involveReason, existing.involveReason with
      | some reason, some current => decide (involveReasonRank reason < involveReasonRank current)
      | some _, none => true
      | none, _ => false
    { existing with
      reasons := existing.reasons ++ t.1.reasons.filter fun reason => ! existing.reasons.contains reason
      involveReason := if outranks then t.1.involveReason else existing.involveReason
      involveLogin := if outranks then t.1.involveLogin else existing.involveLogin
      wakeEligibility :=
        if wakeEligibilityRank wakeEligibility < wakeEligibilityRank existing.wakeEligibility then wakeEligibility
        else existing.wakeEligibility
      providerContext := existing.providerContext.or t.1.providerContext }
  | none =>
    { senderAgentId := scmTargetSenderAgentId t.1
      humanAgentId := scmTargetHumanAgentId t.1
      wakeAgentId := scmTargetWakeAgentId t.1
      wakeEligibility := wakeEligibility
      reasons := t.1.reasons
      involveReason := t.1.involveReason
      involveLogin := t.1.involveLogin
      providerContext := t.1.providerContext }

end Target

section Plan

variable {π ε : Type}

/-- One resolved target joins the delivery of its chat. -/
def joinDelivery (actorHumanId : Option Identifier) (delivery : Option (ScmPlannedChatDelivery π))
    (t : ScmAudienceTarget π × ResolvedScmChat) : ScmPlannedChatDelivery π :=
  let delivery : ScmPlannedChatDelivery π := match delivery with
    | none => { chatId := t.2.chatId, created := t.2.created, entries := OrderedMap.empty }
    | some delivery => { delivery with created := delivery.created || t.2.created }
  { delivery with
    entries := delivery.entries.upsert (deliveryEntryKey t.1) fun existing => mergeDeliveryEntry actorHumanId existing t }

/-- What `planScmChatDeliveries` returns, and the targets it reports through `onTargetError` and `onTargetDropped`. -/
structure ScmDeliveryPlan (π ε : Type) where
  deliveries : OrderedMap Identifier (ScmPlannedChatDelivery π)
  failed : Nat
  targetErrors : List (ScmAudienceTarget π × ε)
  droppedTargets : List (ScmAudienceTarget π)

/-- One target of the loop. -/
def planTarget (actorHumanId : Option Identifier) (resolveChat : ScmAudienceTarget π → Except ε (Option ResolvedScmChat))
    (plan : ScmDeliveryPlan π ε) (target : ScmAudienceTarget π) : ScmDeliveryPlan π ε :=
  match resolveChat target with
  | .error err => { plan with failed := plan.failed + 1, targetErrors := plan.targetErrors ++ [(target, err)] }
  | .ok none => { plan with droppedTargets := plan.droppedTargets ++ [target] }
  | .ok (some resolved) =>
    { plan with
      deliveries := plan.deliveries.upsert resolved.chatId fun delivery => joinDelivery actorHumanId delivery (target, resolved) }

/-- `planScmChatDeliveries`. -/
def planScmChatDeliveries (targets : List (ScmAudienceTarget π)) (actorHumanId : Option Identifier)
    (resolveChat : ScmAudienceTarget π → Except ε (Option ResolvedScmChat)) : ScmDeliveryPlan π ε :=
  targets.foldl (planTarget actorHumanId resolveChat)
    { deliveries := OrderedMap.empty, failed := 0, targetErrors := [], droppedTargets := [] }

end Plan

/-! ## The sender, the card and the wake list -/

section Selection

variable {π : Type}

/-- `compareScmDeliveryEntries`. -/
def compareScmDeliveryEntries (C : PlainCollation) (a b : ScmDeliveryEntry π) : Ordering :=
  (C.localeCompare (a.humanAgentId.getD a.senderAgentId).text (b.humanAgentId.getD b.senderAgentId).text).then
    (C.localeCompare ((a.wakeAgentId.map (·.text)).getD "") ((b.wakeAgentId.map (·.text)).getD ""))

/-- The order in which a sender is picked. -/
def compareForSender (C : PlainCollation) (a b : ScmDeliveryEntry π) : Ordering :=
  (compare (wakeEligibilityRank a.wakeEligibility) (wakeEligibilityRank b.wakeEligibility)).then (compareScmDeliveryEntries C a b)

/-- `selectScmSenderId`. -/
def selectScmSenderId (C : PlainCollation) (entries : List (ScmDeliveryEntry π)) : Except String Identifier :=
  match (ComparatorSort.sortBy (compareForSender C) entries).head? with
  | some first => .ok first.senderAgentId
  | none => .error "delivery plan must have at least one routed entry"

/-- `involveReasonRank` of an entry, which may have no reason. -/
def entryReasonRank (e : ScmDeliveryEntry π) : Nat := (e.involveReason.map involveReasonRank).getD 3

/-- The order in which a card context is picked. -/
def compareForCard (C : PlainCollation) (a b : ScmDeliveryEntry π) : Ordering :=
  (compare (entryReasonRank a) (entryReasonRank b)).then (compareScmDeliveryEntries C a b)

/-- `selectScmCardContext`: the reason and the login of the card. -/
def selectScmCardContext (C : PlainCollation) (entries : List (ScmDeliveryEntry π)) :
    Option InvolveReason × Option ExternalUsername :=
  match (ComparatorSort.sortBy (compareForCard C) (entries.filter fun e => e.involveReason.isSome)).head? with
  | some involved => (involved.involveReason, involved.involveLogin)
  | none => (none, none)

/-- `scmWakeAgentIds`. -/
def scmWakeAgentIds (entries : List (ScmDeliveryEntry π)) : List String :=
  let ids := entries.flatMap fun e => if e.wakeEligibility = .eligible then (e.wakeAgentId.map (·.text)).toList else []
  ids.dedup.insertionSort (· ≤ ·)

end Selection

end FirstTree
