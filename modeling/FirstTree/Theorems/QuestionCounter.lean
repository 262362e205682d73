import FirstTree.Lib.Questions
import FirstTree.Lib.Runs
import FirstTree.Lemmas.MessagePreflight
import FirstTree.Server.OpenRequests

/-!
# The counter of open questions

The messages of a chat form a log of questions and answers: a request asks its one target, and only the target's first resolution of a
request, under the lock of the request's row, takes it off the counter again. The counter of every agent is the number of requests the
reader lists for it, and is positive whenever it is decremented.
-/

namespace FirstTree

open Runs Transactions Questions MessagePreflight MessagePreflightAux OpenRequests

variable {Tx : Type} [DecidableEq Tx]

namespace OpenRequests

/-- The counters count what the reader lists when no transaction is open, and a counter about to be decremented is positive. -/
structure CounterExact (text : JsonText) (s : RequestSystem Tx) : Prop where
  exact : s.Quiescent → ∀ h, openRequestCountOf s.store h = (listOpenRequestsForViewer text s.store.messages h).length
  unfloored : ∀ tx t target, s.find tx = some t → t.next = .closeRequest target → 1 ≤ (visibleCount s.store t target).getD 0

end OpenRequests

namespace QuestionCounterAux

/-! ## Rows as posts -/

/-- What a row asks and answers. -/
def post (text : JsonText) (row : MessageRow) : Post String String :=
  { id := row.id, sender := row.senderId, asks := requestTarget row, answers := resolvedRequest text row.metadata }

/-- What a row asks and answers, and whether it is a request. -/
def view (text : JsonText) (row : MessageRow) : Post String String × Bool := (post text row, decide (row.format = .request))

/-- The log of the committed rows. -/
def posts (text : JsonText) (store : RequestStore) : List (Post String String) := store.messages.map (post text)

/-- A prepared send: a request has its one target, and a resolution is what `resolves` says. -/
structure SendOk (text : JsonText) (send : PreparedSend) : Prop where
  request : send.row.format = .request → ∃ target, send.mergedMentions = [target] ∧ target ≠ "" ∧ requestTarget send.row = some target
  resolution : resolvedRequest text send.row.metadata = (resolutionOf send.row.metadata).map (·.request)

/-- A resolution that parses is read from the row as it is. -/
theorem resolvedRequest_of_parse (text : JsonText) (metadata : Metadata)
    (h : (metadata.lookup "resolves").isSome = true → resolutionOf metadata ≠ none) :
    resolvedRequest text metadata = (resolutionOf metadata).map (·.request) := by
  unfold resolvedRequest resolutionOf at *
  cases hr : metadata.lookup "resolves" with
  | none => rfl
  | some resolves =>
    obtain ⟨resolution, hp⟩ := Option.ne_none_iff_exists'.mp (h (by rw [hr]; rfl))
    rw [hr] at hp
    rw [hp]
    cases resolves with
    | obj entries =>
      simp only [RequestResolution.parse, Option.bind_eq_bind, Option.bind_eq_some_iff] at hp
      obtain ⟨request, ⟨requestJson, hrequest, hstr⟩, _, _, kind, hkind, _, _, heq⟩ := hp
      obtain rfl := Option.some.inj heq
      obtain rfl : requestJson = .str request := by
        cases requestJson <;> simp [Json.string?] at hstr
        rw [hstr]
      have hread : ((Json.obj entries).field? "kind").bind text.read = some "answered" ∨
          ((Json.obj entries).field? "kind").bind text.read = some "closed" := by
        unfold ResolutionKind.parse at hkind
        split at hkind
        · next name hname =>
          rw [hname, Option.bind_some, text.read_str]
          split at hkind
          · next ha => exact Or.inl (by rw [ha])
          · split at hkind
            · next hc => exact Or.inr (by rw [hc])
            · cases hkind
        · cases hkind
      rcases hread with hread | hread <;> simp [hread, hrequest, text.read_str]
    | _ => cases hp

/-- What a send stores under a key that no marker and no flag of the server uses. -/
theorem lookup_stored {rd : MessageReaders} {reads : SendReads} {input : SendIntent} {prepared : SendMessagePreflightResult}
    {metadata : Metadata} (hp : preflightMessageSendIntent rd input = .ok prepared)
    (hm : storedMetadata rd reads input = .ok metadata)
    {key : String} (hkey : key ≠ teamSkillInvocationKey ∧ key ≠ firstChatOrientationContinuationKey ∧ key ≠ askAgentKey) :
    metadata.lookup key = prepared.metadata.lookup key := by
  obtain ⟨prepared', hp', hm⟩ := bind_ok hm
  rw [hp] at hp'
  obtain rfl := Except.ok.inj hp'
  obtain ⟨markers, _, hm⟩ := bind_ok hm
  obtain rfl := Except.ok.inj hm
  obtain ⟨h₁, h₂, h₃⟩ := hkey
  rw [stampServerMarkers, lookup_stamp, if_neg h₁, lookup_stamp, if_neg h₂, lookup_stamp, if_neg h₃]

/-- An accepted send is a prepared one. -/
theorem sendOk_prepare {rd : MessageReaders} (text : JsonText) {messageId : String} {input : SendIntent} {reads : SendReads}
    {send : PreparedSend} (h : prepareSend rd messageId input reads = .ok send) : SendOk text send := by
  obtain ⟨prepared, hp, h⟩ := bind_ok h
  obtain ⟨metadata, hm, h⟩ := bind_ok h
  obtain rfl := Except.ok.inj h
  obtain ⟨incomingMeta, hi, hmeta, hmentions, hrequest⟩ := preflight_ok hp
  refine ⟨fun hformat => ?_, resolvedRequest_of_parse text metadata fun hsome => ?_⟩
  · -- The check of the target leaves one mention, which the row stores.
    unfold checkRequestTarget at hrequest
    rw [if_neg (fun hne => hne hformat)] at hrequest
    split at hrequest
    · next target hmerged =>
      obtain ⟨_, hempty, _⟩ := bind_ok hrequest
      refine ⟨target, hmentions.trans hmerged, reject_ok hempty, ?_⟩
      rw [requestTarget, if_pos hformat, lookup_stored hp hm ⟨by decide, by decide, by decide⟩, hmeta, lookup_stampAgentFinalText,
        if_neg (by decide), lookup_metadataToStore, if_neg (by decide), if_neg (fun hk => absurd hk.1 (by decide)), hmerged,
        if_pos ⟨rfl, by simp⟩]
      rfl
    · cases hrequest
  · -- What is stored under `resolves` is what preflight has parsed.
    have hlookup : metadata.lookup "resolves" = incomingMeta.lookup "resolves" := by
      rw [lookup_stored hp hm ⟨by decide, by decide, by decide⟩, hmeta, lookup_stampAgentFinalText, if_neg (by decide),
        lookup_metadataToStore, if_neg (by decide), if_neg (fun hk => absurd hk.1 (by decide)),
        if_neg (fun hk => absurd hk.1 (by decide))]
    have hparse : (incomingMeta.lookup "resolves").isSome = true → resolutionOf incomingMeta ≠ none := by
      obtain ⟨_, _, hi⟩ := bind_ok hi
      obtain ⟨_, _, hi⟩ := bind_ok hi
      obtain ⟨_, _, hi⟩ := bind_ok hi
      obtain ⟨_, _, hi⟩ := bind_ok hi
      obtain ⟨_, hv, hi⟩ := bind_ok hi
      obtain rfl := Except.ok.inj hi
      exact fun hsome hnone => reject_ok hv ⟨hsome, hnone⟩
    rw [hlookup] at hsome
    rw [resolutionOf, hlookup]
    exact hparse hsome

/-! ## The parts of the invariant -/

/-- What holds of the committed rows and counters. -/
structure StoreOk (text : JsonText) (store : RequestStore) : Prop where
  valid : Valid (posts text store)
  asked : ∀ row ∈ store.messages, row.format = .request → (requestTarget row).isSome = true
  counts : ∀ h, openRequestCountOf store h = openCount (posts text store) h

/-- A transaction has counted the request it inserts. -/
def Opened (text : JsonText) (store : RequestStore) (t : RequestTx) (row : MessageRow) : Prop :=
  ∀ h, (visibleCount store t h).getD 0 = openRequestCountOf store h + opens (post text row) h

/-- A row resolves a request to its sender, which its transaction holds. -/
structure Resolves (text : JsonText) (store : RequestStore) (t : RequestTx) (row : MessageRow) (request : String) : Prop where
  answers : (post text row).answers = some request
  locked : request ∈ t.lockedMessages
  asked : ∃ p ∈ posts text store ++ [post text row], p.id = request ∧ p.asks = some row.senderId

/-- What the next statement of a transaction rests on. -/
def NextOk (text : JsonText) (store : RequestStore) (t : RequestTx) : RequestStatement → Prop
  | .insertMessage send => t.inserted = none ∧ t.counts = ∅ ∧ SendOk text send
  | .openRequest target send => t.inserted = some send.row ∧ t.counts = ∅ ∧ SendOk text send ∧ requestTarget send.row = some target
  | .lockParent resolution send => t.inserted = some send.row ∧ Opened text store t send.row ∧ SendOk text send ∧
      resolutionOf send.row.metadata = some resolution
  | .scanPriors request target _ => ∃ row, t.inserted = some row ∧ Opened text store t row ∧ Resolves text store t row request ∧
      target = row.senderId
  | .closeRequest target => ∃ row request, t.inserted = some row ∧ Opened text store t row ∧ Resolves text store t row request ∧
      target = row.senderId ∧ answered (posts text store) request = false
  | .lockMessage _ => t.inserted = none ∧ t.counts = ∅
  | .updateMessage _ => t.inserted = none ∧ t.counts = ∅
  | .done => (t.inserted = none → t.counts = ∅) ∧ ∀ row, t.inserted = some row →
      (∀ h, (visibleCount store t h).getD 0 + closes (posts text store) (post text row) h =
        openRequestCountOf store h + opens (post text row) h) ∧
      ∀ request, (post text row).answers = some request → Resolves text store t row request

/-- What holds of an open transaction. -/
structure TxOk (text : JsonText) (store : RequestStore) (t : RequestTx) : Prop where
  next : NextOk text store t t.next
  counts : ∀ h n, t.counts.lookup h = some n → h ∈ t.lockedStates
  fresh : ∀ row, t.inserted = some row → ∀ p ∈ posts text store, p.id ≠ row.id
  asked : ∀ row, t.inserted = some row → row.format = .request → (requestTarget row).isSome = true
  updated : ∀ row, t.updated = some row → view text row ∈ store.messages.map (view text)

/-- Two transactions hold no message and no counter together, and insert different ids. -/
structure PairOk (t t' : RequestTx) : Prop where
  messages : Exclusive (fun (t : RequestTx) id => id ∈ t.lockedMessages) t t'
  states : Exclusive (fun (t : RequestTx) h => h ∈ t.lockedStates) t t'
  inserted : ∀ row row', t.inserted = some row → t'.inserted = some row' → row.id ≠ row'.id

/-- The invariant of the chat. -/
abbrev Sound (text : JsonText) (s : RequestSystem Tx) : Prop :=
  Invariant (StoreOk text) (TxOk text) PairOk s

theorem pairOk_symm {t t' : RequestTx} (h : PairOk t t') : PairOk t' t :=
  ⟨Exclusive.symm h.messages, Exclusive.symm h.states, fun row row' hr hr' => (h.inserted row' row hr' hr).symm⟩

/-! ## Commits -/

/-- The rows have distinct ids. -/
theorem StoreOk.row_eq {text : JsonText} {store : RequestStore} (hs : StoreOk text store) {row row' : MessageRow}
    (hrow : row ∈ store.messages) (hrow' : row' ∈ store.messages) (h : row.id = row'.id) : row = row' := by
  have hids := hs.valid.ids
  rw [posts, List.map_map] at hids
  exact List.inj_on_of_nodup_map hids hrow hrow' h

/-- The log after a commit: an edit leaves it, a send adds its row. -/
theorem views_commit {text : JsonText} {store : RequestStore} {t : RequestTx} (hs : StoreOk text store) (h : TxOk text store t) :
    (commitStore store t).messages.map (view text) = store.messages.map (view text) ++ t.inserted.toList.map (view text) := by
  rw [commitStore, List.map_append, List.map_map]
  refine congrArg (· ++ _) (List.map_congr_left fun row hrow => ?_)
  rw [Function.comp_apply]
  cases hupdated : t.updated with
  | none => rfl
  | some updated =>
    by_cases hid : updated.id = row.id
    · -- The edited row has the view of the one row with its id.
      obtain ⟨row', hrow', hview⟩ := List.mem_map.mp (h.updated updated hupdated)
      have hid' : row'.id = row.id := (congrArg (fun v => v.1.id) hview).trans hid
      rw [Option.filter_some, if_pos (by simpa using hid), Option.getD_some, ← hview, hs.row_eq hrow' hrow hid']
    · rw [Option.filter_some, if_neg (by simpa using hid), Option.getD_none]

/-- The log after a commit, by its posts. -/
theorem posts_commit {text : JsonText} {store : RequestStore} {t : RequestTx} (hs : StoreOk text store) (h : TxOk text store t) :
    posts text (commitStore store t) = posts text store ++ t.inserted.toList.map (post text) := by
  have hviews := congrArg (List.map Prod.fst) (views_commit hs h)
  rw [List.map_append, List.map_map, List.map_map, List.map_map] at hviews
  exact hviews

/-- The counter after a commit is the one its transaction saw. -/
theorem count_commit (store : RequestStore) (t : RequestTx) (h : String) :
    openRequestCountOf (commitStore store t) h = (visibleCount store t h).getD 0 := by
  rw [openRequestCountOf, commitStore, AssocList.lookup_union, visibleCount]

/-- A commit keeps what holds of the store. -/
theorem storeOk_commit {text : JsonText} {store : RequestStore} {t : RequestTx} (hs : StoreOk text store) (h : TxOk text store t)
    (hdone : t.next = .done) : StoreOk text (commitStore store t) := by
  have hnext := h.next
  rw [hdone] at hnext
  have hposts := posts_commit hs h
  have hasked : ∀ row ∈ (commitStore store t).messages, row.format = .request → (requestTarget row).isSome = true := by
    intro row hrow hformat
    have hmem := List.mem_map_of_mem (f := view text) hrow
    rw [views_commit hs h, ← List.map_append] at hmem
    obtain ⟨row', hrow', hview⟩ := List.mem_map.mp hmem
    have htarget : requestTarget row' = requestTarget row := congrArg (fun v => v.1.asks) hview
    have hformat' : row'.format = .request := by
      have := congrArg Prod.snd hview
      simpa [view, hformat] using this
    rw [← htarget]
    rcases List.mem_append.mp hrow' with hrow' | hrow'
    · exact hs.asked row' hrow' hformat'
    · exact h.asked row' (Option.mem_toList.mp hrow') hformat'
  cases hinserted : t.inserted with
  | none =>
    rw [hinserted, Option.toList_none, List.map_nil, List.append_nil] at hposts
    refine ⟨hposts ▸ hs.valid, hasked, fun a => ?_⟩
    rw [count_commit, hposts, ← hs.counts, visibleCount, hnext.1 hinserted]
    simp [openRequestCountOf]
  | some row =>
    rw [hinserted, Option.toList_some, List.map_singleton] at hposts
    obtain ⟨hcounts, hresolves⟩ := hnext.2 row hinserted
    have hnew : ∀ q, (post text row).answers = some q →
        ∃ p ∈ posts text store ++ [post text row], p.id = q ∧ p.asks = some (post text row).sender :=
      fun q hq => (hresolves q hq).asked
    refine ⟨hposts ▸ hs.valid.append (h.fresh row hinserted) hnew, hasked, fun a => ?_⟩
    have happend := openCount_append hs.valid (h.fresh row hinserted) hnew a
    have hcount := hcounts a
    have hstore := hs.counts a
    rw [count_commit, hposts]
    omega

/-- A transaction sees its own counters as they were after another commits, and the others as they are. -/
theorem visibleCount_commit {text : JsonText} {store : RequestStore} {t o : RequestTx} (h : TxOk text store t)
    (ho : TxOk text store o) (hpair : PairOk t o) (a : String) {x y : Nat}
    (heq : (visibleCount store o a).getD 0 + x = openRequestCountOf store a + y) :
    (visibleCount (commitStore store t) o a).getD 0 + x = openRequestCountOf (commitStore store t) a + y := by
  cases hown : o.counts.lookup a with
  | none =>
    have hsame : ∀ store, (visibleCount store o a).getD 0 = openRequestCountOf store a := by
      intro store
      rw [visibleCount, hown, Option.none_or, openRequestCountOf]
    rw [hsame] at heq ⊢
    omega
  | some n =>
    have hfree : t.counts.lookup a = none := by
      cases hcount : t.counts.lookup a with
      | none => rfl
      | some m => exact absurd (ho.counts a n hown) (hpair.states a (h.counts a m hcount))
    have hsame : openRequestCountOf (commitStore store t) a = openRequestCountOf store a := by
      rw [count_commit, visibleCount, hfree, Option.none_or, openRequestCountOf]
    rw [hsame]
    rwa [visibleCount, hown, Option.some_or] at heq ⊢

/-- A commit keeps what holds of another transaction. -/
theorem txOk_commit {text : JsonText} {store : RequestStore} {t o : RequestTx} (hs : StoreOk text store) (h : TxOk text store t)
    (ho : TxOk text store o) (hpair : PairOk t o) (hdone : t.next = .done) : TxOk text (commitStore store t) o := by
  have hlast := h.next
  rw [hdone] at hlast
  have hposts := posts_commit hs h
  have hopened : ∀ row, Opened text store o row → Opened text (commitStore store t) o row := fun row hopen a =>
    visibleCount_commit h ho hpair a (x := 0) (hopen a)
  -- The commit answers no request that the other transaction holds.
  have hanswered : ∀ q ∈ o.lockedMessages, answered (posts text (commitStore store t)) q = answered (posts text store) q := by
    intro q hq
    rw [hposts]
    cases hinserted : t.inserted with
    | none => simp
    | some row =>
      have hne : (post text row).answers ≠ some q := fun hans =>
        hpair.messages q ((hlast.2 row hinserted).2 q hans).locked hq
      rw [Option.toList_some, List.map_singleton, answered_append]
      simp [hne]
  have hresolves : ∀ row q, Resolves text store o row q → Resolves text (commitStore store t) o row q := by
    rintro row q ⟨hans, hlocked, p, hp, hask⟩
    refine ⟨hans, hlocked, p, ?_, hask⟩
    rw [hposts, List.append_assoc]
    rcases List.mem_append.mp hp with hp | hp
    · exact List.mem_append_left _ hp
    · exact List.mem_append_right _ (List.mem_append_right _ hp)
  refine ⟨?_, ho.counts, fun row hrow p hp => ?_, ho.asked, fun row hrow => ?_⟩
  · have hnext := ho.next
    cases hn : o.next with
    | insertMessage send =>
      rw [hn] at hnext
      exact hnext
    | openRequest target send =>
      rw [hn] at hnext
      exact hnext
    | lockParent resolution send =>
      rw [hn] at hnext
      exact ⟨hnext.1, hopened _ hnext.2.1, hnext.2.2⟩
    | scanPriors request target asker =>
      rw [hn] at hnext
      obtain ⟨row, hinserted, hopen, hres, htarget⟩ := hnext
      exact ⟨row, hinserted, hopened row hopen, hresolves row request hres, htarget⟩
    | closeRequest target =>
      rw [hn] at hnext
      obtain ⟨row, request, hinserted, hopen, hres, htarget, hfirst⟩ := hnext
      exact ⟨row, request, hinserted, hopened row hopen, hresolves row request hres, htarget,
        (hanswered request hres.locked).trans hfirst⟩
    | lockMessage edit =>
      rw [hn] at hnext
      exact hnext
    | updateMessage edit =>
      rw [hn] at hnext
      exact hnext
    | done =>
      rw [hn] at hnext
      refine ⟨hnext.1, fun row hinserted => ?_⟩
      obtain ⟨hcounts, hres⟩ := hnext.2 row hinserted
      refine ⟨fun a => ?_, fun request hans => hresolves row request (hres request hans)⟩
      have hcloses : closes (posts text (commitStore store t)) (post text row) a = closes (posts text store) (post text row) a := by
        unfold closes
        cases hans : (post text row).answers with
        | none => rfl
        | some request => rw [Option.any_some, Option.any_some, hanswered request (hres request hans).locked]
      rw [hcloses]
      exact visibleCount_commit h ho hpair a (hcounts a)
  · rw [hposts] at hp
    rcases List.mem_append.mp hp with hp | hp
    · exact ho.fresh row hrow p hp
    · obtain ⟨row', hrow', rfl⟩ := List.mem_map.mp hp
      exact hpair.inserted row' row (Option.mem_toList.mp hrow') hrow
  · rw [views_commit hs h]
    exact List.mem_append_left _ (ho.updated row hrow)

/-! ## One statement -/

/-- A transaction that has written no counter sees the committed ones. -/
theorem visibleCount_empty {store : RequestStore} {t : RequestTx} (h : t.counts = ∅) (a : String) :
    (visibleCount store t a).getD 0 = openRequestCountOf store a := by
  rw [visibleCount, h, AList.lookup_empty, Option.none_or, openRequestCountOf]

/-- A written counter, and the others as they were. -/
theorem visibleCount_write (store : RequestStore) (t : RequestTx) (target : String) (count : Nat) (next : RequestStatement)
    (a : String) :
    visibleCount store (writeCount t target count next) a = if a = target then some count else visibleCount store t a := by
  rw [visibleCount, writeCount, AssocList.lookup_insert_ite]
  split
  · rfl
  · rfl

/-- A row that is no request adds nothing to a counter. -/
theorem opens_of_format {text : JsonText} {row : MessageRow} (h : row.format ≠ .request) (a : String) :
    opens (post text row) a = 0 := by
  simp [opens, post, requestTarget, h]

/-- A row that resolves nothing takes nothing from a counter. -/
theorem closes_of_none {text : JsonText} {store : RequestStore} {row : MessageRow} (h : (post text row).answers = none) (a : String) :
    closes (posts text store) (post text row) a = 0 := by
  simp [closes, h]

/-- The first row that resolves a request takes it from the counter of its sender. -/
theorem closes_of_first {text : JsonText} {store : RequestStore} {row : MessageRow} {request : String}
    (h : (post text row).answers = some request) (hfirst : answered (posts text store) request = false) :
    closes (posts text store) (post text row) row.senderId = 1 :=
  if_pos ⟨by rw [h, Option.any_some, hfirst]; rfl, rfl⟩

/-- A counter about to be decremented is positive: its request is open, or is the transaction's own. -/
theorem one_le_visibleCount {text : JsonText} {store : RequestStore} {t : RequestTx} {row : MessageRow} {request : String}
    (hs : StoreOk text store) (hopen : Opened text store t row) (hres : Resolves text store t row request)
    (hfirst : answered (posts text store) request = false) : 1 ≤ (visibleCount store t row.senderId).getD 0 := by
  obtain ⟨p, hp, rfl, hasks⟩ := hres.asked
  rw [hopen]
  rcases List.mem_append.mp hp with hp | hp
  · have := one_le_openCount hp hasks hfirst
    rw [hs.counts]
    omega
  · obtain rfl := List.mem_singleton.mp hp
    have : opens (post text row) row.senderId = 1 := if_pos hasks
    omega

/-- The statement after the counter of a request is ready to run. -/
theorem nextOk_afterRequest {text : JsonText} {store : RequestStore} {t : RequestTx} {send : PreparedSend}
    (hinserted : t.inserted = some send.row) (hopen : Opened text store t send.row) (hsend : SendOk text send) :
    NextOk text store t (afterRequest send) := by
  unfold afterRequest
  cases hres : resolutionOf send.row.metadata with
  | some resolution => exact ⟨hinserted, hopen, hsend, hres⟩
  | none =>
    have hnone : (post text send.row).answers = none := hsend.resolution.trans (by rw [hres]; rfl)
    refine ⟨fun hno => absurd (hinserted.symm.trans hno) nofun, fun row hrow => ?_⟩
    obtain rfl := Option.some.inj (hinserted.symm.trans hrow)
    refine ⟨fun a => ?_, fun request hans => absurd (hnone.symm.trans hans) nofun⟩
    rw [closes_of_none hnone]
    exact hopen a

/-- The scan of an open request finds nothing, and that of an answered one finds its answer. -/
theorem priors_isEmpty {text : JsonText} {store : RequestStore} {t : RequestTx} {row : MessageRow} {request : String}
    (hs : StoreOk text store) (ht : TxOk text store t) (hinserted : t.inserted = some row) (hres : Resolves text store t row request)
    (asker : String) :
    (priors text store t request row.senderId asker).isEmpty = ! answered (posts text store) request := by
  rw [Bool.eq_iff_iff, Bool.not_eq_true', List.isEmpty_iff, priors, List.filter_eq_nil_iff, answered, List.any_eq_false]
  constructor
  · intro hnone p hp hans
    obtain ⟨prior, hprior, rfl⟩ := List.mem_map.mp hp
    have hans' : resolvedRequest text prior.metadata = some request := of_decide_eq_true hans
    -- The prior is by the target, as the request is a committed one.
    obtain ⟨p', hp', hid, hasks⟩ := hres.asked
    have hsender : prior.senderId = row.senderId := by
      rcases List.mem_append.mp hp' with hp' | hp'
      · have := hs.valid.sender_of_answers hp' hp (hans'.trans (by rw [hid]))
        exact (Option.some.inj (hasks.symm.trans this)).symm
      · obtain rfl := List.mem_singleton.mp hp'
        obtain ⟨p'', hp'', hid'', _⟩ := hs.valid.answers _ hp request hans'
        exact absurd (hid''.trans hid.symm) (ht.fresh row hinserted p'' hp'')
    refine hnone prior (List.mem_append_left _ hprior) ?_
    have hne : row.id ≠ prior.id := (ht.fresh row hinserted _ hp).symm
    simp [hinserted, hne, hans', hsender]
  · intro hnone prior hprior hmatch
    simp only [Bool.and_eq_true, decide_eq_true_eq, hinserted, Option.map_some, ne_eq, Option.some.injEq] at hmatch
    rcases List.mem_append.mp hprior with hprior | hprior
    · exact hnone _ (List.mem_map_of_mem hprior) (decide_eq_true hmatch.1.2)
    · rw [hinserted, Option.toList_some, List.mem_singleton] at hprior
      exact hmatch.1.1 (by rw [hprior])

/-- An edit changes nothing that is counted. -/
theorem view_editedRow {rd : MessageReaders} (text : JsonText) {edit : MessageEdit} {row updated : MessageRow}
    (h : editedRow rd edit row = .ok updated) : view text updated = view text row := by
  obtain ⟨_, _, h⟩ := bind_ok h
  obtain ⟨_, _, h⟩ := bind_ok h
  obtain ⟨_, _, h⟩ := bind_ok h
  obtain ⟨_, _, h⟩ := bind_ok h
  obtain ⟨_, hformat, h⟩ := bind_ok h
  obtain ⟨content, _, h⟩ := bind_ok h
  have hrow : updated =
      { row with
        format := edit.format.getD row.format, content := content,
        metadata := row.metadata.insert "editedAt" (.str edit.editedAt) } := by
    split at h
    · obtain ⟨_, _, h⟩ := bind_ok h
      exact (Except.ok.inj h).symm
    · exact (Except.ok.inj h).symm
  have hkept : edit.format.getD row.format = .request ↔ row.format = .request := by
    have hguard := reject_ok hformat
    cases hf : edit.format with
    | none => rfl
    | some format =>
      simp only [hf, Option.any_some, decide_eq_true_eq, not_and, not_or] at hguard
      simp only [Option.getD_some]
      constructor
      · intro heq
        by_contra hne
        exact (hguard (fun h => hne (h ▸ heq))).1 heq
      · intro heq
        by_contra hne
        exact (hguard (fun h => hne (h.trans heq))).2 heq
  have hlookup : ∀ key, key ≠ "editedAt" → (row.metadata.insert "editedAt" (.str edit.editedAt)).lookup key =
      row.metadata.lookup key :=
    fun key hne => AList.lookup_insert_ne hne
  subst hrow
  simp only [view, post, requestTarget, resolvedRequest, hkept, hlookup "mentions" (by decide), hlookup "resolves" (by decide)]

/-- A free id is new to the log. -/
theorem fresh_of_idFree {text : JsonText} {s : RequestSystem Tx} {tx : Tx} {id : String} (h : idFree s tx id = true) :
    ∀ p ∈ posts text s.store, p.id ≠ id := by
  rintro p hp
  obtain ⟨row, hrow, rfl⟩ := List.mem_map.mp hp
  simp only [idFree, Bool.and_eq_true, List.all_eq_true, decide_eq_true_eq] at h
  exact h.1 row hrow

/-- What a statement does to the parts of its transaction that the others meet: it inserts a free id, and locks free rows. -/
structure Takes (s : RequestSystem Tx) (tx : Tx) (t t' : RequestTx) : Prop where
  messages : ∀ id ∈ t'.lockedMessages, id ∈ t.lockedMessages ∨ messageFree s tx id = true
  states : ∀ h ∈ t'.lockedStates, h ∈ t.lockedStates ∨ stateFree s tx h = true
  inserted : ∀ row, t'.inserted = some row → t.inserted = some row ∨ idFree s tx row.id = true

/-- A statement that takes nothing. -/
theorem Takes.refl {s : RequestSystem Tx} {tx : Tx} {t t' : RequestTx} (hm : t'.lockedMessages = t.lockedMessages)
    (hs : t'.lockedStates = t.lockedStates) (hi : t'.inserted = t.inserted) : Takes s tx t t' :=
  ⟨fun _ h => Or.inl (hm ▸ h), fun _ h => Or.inl (hs ▸ h), fun _ h => Or.inl (hi ▸ h)⟩

/-- A statement that writes a free counter. -/
theorem Takes.writeCount {s : RequestSystem Tx} {tx : Tx} {t : RequestTx} {target : String} (hfree : stateFree s tx target = true)
    (count : Nat) (next : RequestStatement) : Takes s tx t (writeCount t target count next) := by
  refine ⟨fun _ h => Or.inl h, fun h hh => ?_, fun _ h => Or.inl h⟩
  rcases List.mem_cons.mp hh with rfl | hh
  · exact Or.inr hfree
  · exact Or.inl hh

/-- A statement that locks a free message. -/
theorem Takes.lockMessage {s : RequestSystem Tx} {tx : Tx} {t : RequestTx} {id : String} (hfree : messageFree s tx id = true)
    (next : RequestStatement) : Takes s tx t { t with lockedMessages := id :: t.lockedMessages, next := next } := by
  refine ⟨fun id' hh => ?_, fun _ h => Or.inl h, fun _ h => Or.inl h⟩
  rcases List.mem_cons.mp hh with rfl | hh
  · exact Or.inr hfree
  · exact Or.inl hh

/-- A written counter is held. -/
theorem counts_writeCount {t : RequestTx} (h : ∀ a n, t.counts.lookup a = some n → a ∈ t.lockedStates) (target : String) (count : Nat)
    (next : RequestStatement) (a : String) (n : Nat) (hrow : (writeCount t target count next).counts.lookup a = some n) :
    a ∈ (writeCount t target count next).lockedStates := by
  simp only [writeCount, AssocList.lookup_insert_ite] at hrow
  split at hrow
  · next heq => exact heq ▸ List.mem_cons_self
  · exact List.mem_cons_of_mem _ (h a n hrow)

/-- A message found by its id is a committed row or the transaction's own. -/
theorem findMessage_some {store : RequestStore} {t : RequestTx} {id : String} {row : MessageRow}
    (h : findMessage store t id = some row) : row.id = id ∧ (row ∈ store.messages ∨ t.inserted = some row) := by
  refine ⟨by simpa using List.find?_some h, ?_⟩
  rcases List.mem_append.mp (List.mem_of_find?_eq_some h) with hmem | hmem
  · exact Or.inl hmem
  · exact Or.inr (Option.mem_toList.mp hmem)

/-- An accepted resolution is of a request to its sender. -/
theorem resolutionTarget_ok {send : PreparedSend} {resolution : RequestResolution} {parent : MessageRow} {target : String}
    (h : resolutionTarget send resolution parent = .ok target) : target = send.row.senderId ∧ requestTarget parent = some target := by
  unfold resolutionTarget at h
  split at h
  · cases h
  · next target' hparent =>
    obtain ⟨_, hsender, h⟩ := bind_ok h
    have heq : target' = target := by
      split at h
      · obtain ⟨_, _, h⟩ := bind_ok h
        exact Except.ok.inj h
      · exact Except.ok.inj h
    rw [← heq]
    exact ⟨(not_not.mp (reject_ok hsender)).symm, hparent⟩

/-- A statement keeps what holds of its transaction, and takes only what is free. -/
theorem txOk_run {rd : MessageReaders} {text : JsonText} {s : RequestSystem Tx} {tx : Tx} {t t' : RequestTx}
    (hs : StoreOk text s.store)
    (h : TxOk text s.store t) (hstep : runStatement rd text s tx t = some t') : TxOk text s.store t' ∧ Takes s tx t t' := by
  have hnext := h.next
  unfold runStatement at hstep
  cases hn : t.next with
  | insertMessage send =>
    rw [hn] at hnext
    obtain ⟨hnone, hcounts, hsend⟩ := hnext
    simp only [hn] at hstep
    split at hstep
    · next hfree =>
      obtain rfl := Option.some.inj hstep
      have hasked : send.row.format = .request → (requestTarget send.row).isSome = true := by
        intro hformat
        obtain ⟨target, _, _, htarget⟩ := hsend.request hformat
        rw [htarget]
        rfl
      refine ⟨⟨?_, h.counts, fun row hrow => ?_, fun row hrow => ?_, h.updated⟩, ⟨fun _ hm => Or.inl hm, fun _ hm => Or.inl hm,
        fun row hrow => ?_⟩⟩
      · -- A request has one mention, which is its target.
        have hready : send.row.format ≠ .request →
            NextOk text s.store { t with inserted := some send.row, next := afterInsert send } (afterRequest send) := by
          intro hformat
          refine nextOk_afterRequest rfl (fun a => (visibleCount_empty hcounts a).trans ?_) hsend
          rw [opens_of_format hformat, Nat.add_zero]
        unfold afterInsert at hready ⊢
        by_cases hformat : send.row.format = .request
        · obtain ⟨target, hmentions, hne, htarget⟩ := hsend.request hformat
          simp only [hmentions, hformat, hne, ne_eq, not_false_eq_true, and_self, if_true]
          exact ⟨rfl, hcounts, hsend, htarget⟩
        · cases hmentions : send.mergedMentions with
          | nil => simpa [hmentions] using hready hformat
          | cons target rest => simpa [hmentions, hformat] using hready hformat
      · obtain rfl := Option.some.inj hrow
        exact fresh_of_idFree hfree
      · obtain rfl := Option.some.inj hrow
        exact hasked
      · obtain rfl := Option.some.inj hrow
        exact Or.inr hfree
    · cases hstep
  | openRequest target send =>
    rw [hn] at hnext
    obtain ⟨hinserted, hcounts, hsend, htarget⟩ := hnext
    simp only [hn] at hstep
    split at hstep
    · next hfree =>
      obtain rfl := Option.some.inj hstep
      refine ⟨⟨?_, counts_writeCount h.counts _ _ _, h.fresh, h.asked, h.updated⟩, Takes.writeCount hfree _ _⟩
      refine nextOk_afterRequest hinserted (fun a => ?_) hsend
      rw [visibleCount_write, visibleCount_empty hcounts]
      by_cases ha : a = target
      · subst ha
        rw [if_pos rfl, Option.getD_some, opens, if_pos (show (post text send.row).asks = some a from htarget)]
      · have hne : (post text send.row).asks ≠ some a := fun heq => ha (Option.some.inj (heq.symm.trans htarget))
        rw [if_neg ha, visibleCount_empty hcounts, opens, if_neg hne, Nat.add_zero]
    · cases hstep
  | lockParent resolution send =>
    rw [hn] at hnext
    obtain ⟨hinserted, hopen, hsend, hresolution⟩ := hnext
    simp only [hn] at hstep
    obtain ⟨parent, hfind, hstep⟩ := Option.bind_eq_some_iff.mp hstep
    split at hstep
    · next target hfree hok =>
      obtain rfl := Option.some.inj hstep
      obtain ⟨hid, hparent⟩ := findMessage_some hfind
      obtain ⟨htarget, hasks⟩ := resolutionTarget_ok hok
      refine ⟨⟨⟨send.row, hinserted, hopen, ⟨?_, ?_, post text parent, ?_, hid, ?_⟩, htarget⟩, h.counts, h.fresh, h.asked, h.updated⟩,
        Takes.lockMessage hfree _⟩
      · exact hsend.resolution.trans (by rw [hresolution]; rfl)
      · rw [hid]
        exact List.mem_cons_self
      · rcases hparent with hparent | hparent
        · exact List.mem_append_left _ (List.mem_map_of_mem hparent)
        · obtain rfl := Option.some.inj (hinserted.symm.trans hparent)
          exact List.mem_append_right _ (List.mem_singleton_self _)
      · exact hasks.trans (by rw [htarget])
    · cases hstep
  | scanPriors request target asker =>
    rw [hn] at hnext
    obtain ⟨row, hinserted, hopen, hres, rfl⟩ := hnext
    simp only [hn] at hstep
    obtain rfl := Option.some.inj hstep
    rw [priors_isEmpty hs h hinserted hres asker]
    refine ⟨⟨?_, h.counts, h.fresh, h.asked, h.updated⟩, Takes.refl rfl rfl rfl⟩
    cases hfirst : answered (posts text s.store) request with
    | false => exact ⟨row, request, hinserted, hopen, ⟨hres.answers, hres.locked, hres.asked⟩, rfl, hfirst⟩
    | true =>
      refine ⟨fun hno => absurd (hinserted.symm.trans hno) (by simp), fun row' hrow' => ?_⟩
      obtain rfl := Option.some.inj (hinserted.symm.trans hrow')
      refine ⟨fun a => ?_, fun request' hans => ?_⟩
      · have hzero : closes (posts text s.store) (post text row) a = 0 := by
          simp [closes, hres.answers, hfirst]
        rw [hzero]
        exact hopen a
      · obtain rfl := Option.some.inj (hres.answers.symm.trans hans)
        exact ⟨hres.answers, hres.locked, hres.asked⟩
  | closeRequest target =>
    rw [hn] at hnext
    obtain ⟨row, request, hinserted, hopen, hres, rfl, hfirst⟩ := hnext
    have hpos := one_le_visibleCount hs hopen hres hfirst
    simp only [hn] at hstep
    split at hstep
    · next hmissing =>
      rw [hmissing] at hpos
      exact absurd hpos (by simp)
    · next count hcount =>
      split at hstep
      · next hfree =>
        obtain rfl := Option.some.inj hstep
        refine ⟨⟨?_, counts_writeCount h.counts _ _ _, h.fresh, h.asked, h.updated⟩, Takes.writeCount hfree _ _⟩
        refine ⟨fun hno => absurd (hinserted.symm.trans hno) (by simp), fun row' hrow' => ?_⟩
        obtain rfl := Option.some.inj (hinserted.symm.trans hrow')
        refine ⟨fun a => ?_, fun request' hans => ?_⟩
        · have hsame := hopen a
          rw [visibleCount_write]
          by_cases ha : a = row.senderId
          · subst ha
            have hone := closes_of_first hres.answers hfirst
            rw [hcount, Option.getD_some] at hsame hpos
            rw [if_pos rfl, Option.getD_some, hone]
            omega
          · have hzero : closes (posts text s.store) (post text row) a = 0 :=
              if_neg fun hc => ha hc.2.symm
            rw [if_neg ha, hzero]
            exact hsame
        · obtain rfl := Option.some.inj (hres.answers.symm.trans hans)
          exact ⟨hres.answers, hres.locked, hres.asked⟩
      · cases hstep
  | lockMessage edit =>
    rw [hn] at hnext
    simp only [hn] at hstep
    obtain ⟨row, _, hstep⟩ := Option.bind_eq_some_iff.mp hstep
    split at hstep
    · next hfree =>
      obtain rfl := Option.some.inj hstep
      exact ⟨⟨hnext, h.counts, h.fresh, h.asked, h.updated⟩, Takes.lockMessage hfree _⟩
    · cases hstep
  | updateMessage edit =>
    rw [hn] at hnext
    obtain ⟨hnone, hcounts⟩ := hnext
    simp only [hn] at hstep
    obtain ⟨row, hfind, hstep⟩ := Option.bind_eq_some_iff.mp hstep
    split at hstep
    · next updated hok =>
      obtain rfl := Option.some.inj hstep
      refine ⟨⟨⟨fun _ => hcounts, fun row' hrow' => absurd (hnone.symm.trans hrow') (by simp)⟩, h.counts, h.fresh, h.asked,
        fun row' hrow' => ?_⟩, Takes.refl rfl rfl rfl⟩
      obtain rfl := Option.some.inj hrow'
      rw [view_editedRow text hok]
      rcases (findMessage_some hfind).2 with hmem | hmem
      · exact List.mem_map_of_mem hmem
      · exact absurd (hnone.symm.trans hmem) (by simp)
    · cases hstep
  | done =>
    simp only [hn] at hstep
    cases hstep

/-! ## One step -/

/-- What a transaction takes keeps it apart from the others. -/
theorem pairOk_run {s : RequestSystem Tx} {tx : Tx} {t t' o : RequestTx} (h : Takes s tx t t') (ho : o ∈ s.others tx)
    (hpair : PairOk t o) : PairOk t' o where
  messages id hid := by
    rcases h.messages id hid with hid | hfree
    · exact hpair.messages id hid
    · exact of_decide_eq_true (List.all_eq_true.mp hfree o ho)
  states a ha := by
    rcases h.states a ha with ha | hfree
    · exact hpair.states a ha
    · exact of_decide_eq_true (List.all_eq_true.mp hfree o ho)
  inserted row row' hrow hrow' := by
    rcases h.inserted row hrow with hrow | hfree
    · exact hpair.inserted row row' hrow hrow'
    · have hne := of_decide_eq_true (List.all_eq_true.mp (Bool.and_eq_true_iff.mp hfree).2 o ho)
      rw [hrow'] at hne
      exact fun heq => hne (by rw [heq]; rfl)

/-- A call begins with nothing read or written. -/
theorem sound_begin {text : JsonText} {s : RequestSystem Tx} (h : Sound text s) (tx : Tx) {next : RequestStatement}
    (hnext : NextOk text s.store (newTx next) next) : Sound text (s.put s.store tx (some (newTx next))) := by
  refine h.put (fun _ _ => pairOk_symm) h.store (fun t ht => ?_) (fun _ _ ho => ho) fun t ht o ho => ?_
  · obtain rfl := Option.some.inj ht
    exact ⟨hnext, fun a n hrow => absurd hrow (by simp [newTx]), nofun, nofun, nofun⟩
  · obtain rfl := Option.some.inj ht
    exact ⟨fun _ hm => absurd hm List.not_mem_nil, fun _ hm => absurd hm List.not_mem_nil, nofun⟩

/-- A step keeps the invariant. -/
theorem sound_step {rd : MessageReaders} {text : JsonText} {s s' : RequestSystem Tx} {op : RequestOp Tx} (h : Sound text s)
    (hstep : OpenRequests.step rd text s op = some s') : Sound text s' := by
  cases op with
  | sendMessage tx messageId input reads =>
    simp only [OpenRequests.step] at hstep
    split at hstep
    · next send hfind hok => exact Option.some.inj hstep ▸ sound_begin h tx ⟨rfl, rfl, sendOk_prepare text hok⟩
    · cases hstep
  | editMessage tx edit =>
    simp only [OpenRequests.step] at hstep
    split at hstep
    · exact Option.some.inj hstep ▸ sound_begin h tx ⟨rfl, rfl⟩
    · cases hstep
  | run tx =>
    obtain ⟨t, hfind, hstep⟩ := Option.bind_eq_some_iff.mp hstep
    obtain ⟨t', hrun, rfl⟩ := Option.map_eq_some_iff.mp hstep
    obtain ⟨hok, htakes⟩ := txOk_run h.store (h.own tx t hfind) hrun
    refine h.put (fun _ _ => pairOk_symm) h.store (fun u hu => ?_) (fun _ _ ho => ho) fun u hu o ho => ?_
    · exact Option.some.inj hu ▸ hok
    · obtain rfl := Option.some.inj hu
      obtain ⟨k, hne, hother⟩ := System.mem_others.mp ho
      exact pairOk_run htakes ho (h.apart tx k t o (Ne.symm hne) hfind hother)
  | commit tx =>
    obtain ⟨t, hfind, hstep⟩ := Option.bind_eq_some_iff.mp hstep
    split at hstep
    · next hdone =>
      obtain rfl := Option.some.inj hstep
      have ht := h.own tx t hfind
      refine h.put (fun _ _ => pairOk_symm) (storeOk_commit h.store ht hdone) (by simp) (fun o ho hok => ?_) (by simp)
      obtain ⟨k, hne, hother⟩ := System.mem_others.mp ho
      exact txOk_commit h.store ht hok (h.apart tx k t o (Ne.symm hne) hfind hother) hdone
    · cases hstep
  | rollback tx =>
    obtain ⟨t, _, rfl⟩ := Option.map_eq_some_iff.mp hstep
    exact h.put (fun _ _ => pairOk_symm) h.store (by simp) (fun _ _ ho => ho) (by simp)

/-- The reader lists the open questions of the log. -/
theorem length_listOpenRequests {text : JsonText} {store : RequestStore} (hs : StoreOk text store) (a : String) :
    (listOpenRequestsForViewer text store.messages a).length = openCount (posts text store) a := by
  rw [listOpenRequestsForViewer, ← List.countP_eq_length_filter, openCount, posts, List.countP_map]
  refine List.countP_congr fun row hrow => ?_
  rw [Function.comp_apply]
  by_cases hformat : row.format = .request
  · obtain ⟨target, htarget⟩ := Option.isSome_iff_exists.mp (hs.asked row hrow hformat)
    have hmention : mentionsViewer row a = decide ((post text row).asks = some a) := by
      have honly : onlyMention (row.metadata.lookup "mentions") = some target := by
        rwa [requestTarget, if_pos hformat] at htarget
      have hasks : (post text row).asks = some target := htarget
      rw [hasks]
      unfold onlyMention at honly
      unfold mentionsViewer
      split at honly
      · next only hlookup =>
        obtain rfl := Option.some.inj honly
        simp [hlookup, Json.string?]
      · cases honly
    rw [hmention]
    by_cases hasks : (post text row).asks = some a
    · have hresolved : (store.messages.any fun resolver => decide (resolvedRequest text resolver.metadata = some row.id) &&
          (decide (resolver.senderId = row.senderId) || decide (resolver.senderId = a))) =
          answered (store.messages.map (post text)) (post text row).id := by
        rw [answered, List.any_map, Bool.eq_iff_iff, List.any_eq_true, List.any_eq_true]
        refine exists_congr fun resolver => and_congr_right fun hresolver => ?_
        -- Whoever resolves the request is the one it asks.
        have hsender : resolvedRequest text resolver.metadata = some row.id → resolver.senderId = a := by
          intro hans
          have := hs.valid.sender_of_answers (List.mem_map_of_mem hrow) (List.mem_map_of_mem hresolver) hans
          exact (Option.some.inj (hasks.symm.trans this)).symm
        simp only [Bool.and_eq_true, Bool.or_eq_true, decide_eq_true_eq, Function.comp_apply]
        exact ⟨fun hc => hc.1, fun hc => ⟨hc, Or.inr (hsender hc)⟩⟩
      rw [hresolved]
      simp [hformat, hasks]
    · simp [hasks]
  · have hasks : (post text row).asks ≠ some a := by simp [post, requestTarget, hformat]
    simp [hformat, hasks]

end QuestionCounterAux

open QuestionCounterAux

/-! ## The result -/

/-- In every run from an empty chat the counters are the numbers of requests the reader lists, and are positive when decremented. -/
theorem open_request_counter_exact (rd : MessageReaders) (text : JsonText) (ops : List (RequestOp Tx)) (s : RequestSystem Tx)
    (h : Run (ofPartial (OpenRequests.step rd text)) OpenRequests.init ops s) : CounterExact text s := by
  have hsound : Sound text s := by
    refine h.invariant (fun s op s' hs hstep => sound_step hs hstep) (Invariant.idle ⟨⟨?_, nofun⟩, nofun, fun a => ?_⟩)
    · exact List.nodup_nil
    · simp [openRequestCountOf, openCount, posts]
  refine ⟨fun _ a => ?_, fun tx t target hfind hn => ?_⟩
  · rw [length_listOpenRequests hsound.store, hsound.store.counts]
  · have ht := hsound.own tx t hfind
    have hnext := ht.next
    rw [hn] at hnext
    obtain ⟨row, request, hinserted, hopen, hres, rfl, hfirst⟩ := hnext
    exact one_le_visibleCount hsound.store hopen hres hfirst

namespace QuestionCounterExample

/-- Readers that find nothing. -/
def readers : MessageReaders :=
  { isAttachmentRef := fun _ => false, isFileContent := fun _ => false, isDocumentContext := fun _ => false
    contextDecision := fun _ => none, impactNotes := fun _ => [], feishuMessageMetadata := fun _ => none
    jsonString := fun _ => none, toLowerCase := id, binName := "first-tree" }

/-- Only strings have a text. -/
def strings : JsonText := ⟨Json.string?, fun _ => rfl⟩

/-- A message in a chat of the agent `a` and the human `h`. -/
def message (senderId : String) (senderType : SenderType) (format : MessageFormat) (metadata : Metadata) : SendIntent :=
  { chatId := "c", senderId := senderId, senderType := senderType
    data := { format := format, content := .str "ok", metadata := some metadata, inReplyTo := none, source := .api, purpose := none
              receiverNames := [], skillPrecondition := none }
    options :=
      { integrationSender := false, allowFeishuMetadata := false, forceSilentFanOut := false, allowFirstChatOrientation := false
        askAgentRequestId := none, allowRecipientlessSend := false, dropInactiveMentionTargets := false
        normalizeMentionsInContent := false, addressedToAgentIds := [], allowSystemSender := false, allowContextReviewRun := false
        allowGithubTaskRun := false, allowCronTrigger := false }
    participants := [⟨"a", none, "A", .active, .agent⟩, ⟨"h", none, "H", .active, .human⟩] }

/-- The agent asks the human. -/
def ask : SendIntent := message "a" .agent .request ((∅ : Metadata).insert "mentions" (.arr [.str "h"]))

/-- The human answers the request of an id. -/
def answer (request : String) : SendIntent :=
  message "h" .human .text (((∅ : Metadata).insert "mentions" (.arr [.str "a"])).insert "resolves"
    (.obj [("request", .str request), ("kind", .str "answered")]))

/-- The other statements of the transactions find nothing. -/
def reads : SendReads := ⟨none, none, none, fun _ => none, none, fun _ => none, fun _ _ => false⟩

/-- A request is sent, then two answers to it at once. -/
def askedOnce : List (RequestOp Nat) :=
  [.sendMessage 0 "q" ask reads, .run 0, .run 0, .commit 0,
    .sendMessage 1 "r" (answer "q") reads, .sendMessage 2 "s" (answer "q") reads, .run 1, .run 2, .run 1, .run 1, .run 1, .commit 1,
    .run 2, .run 2, .commit 2]

end QuestionCounterExample

open QuestionCounterExample in
/-- Two answers to one request take it off the counter once. -/
theorem open_request_counter_exact_answered :
    ∃ s : RequestSystem Nat, s.store.messages.map (·.id) = ["q", "r", "s"] ∧ openRequestCountOf s.store "h" = 0 ∧
      CounterExact strings s := by
  have hout : (askedOnce.foldlM (OpenRequests.step readers strings) OpenRequests.init).map
      (fun s => (s.store.messages.map (·.id), openRequestCountOf s.store "h")) = some (["q", "r", "s"], 0) := by
    decide
  obtain ⟨s, hs, heq⟩ := Option.map_eq_some_iff.mp hout
  obtain ⟨hmessages, hcount⟩ := Prod.mk.inj heq
  exact ⟨s, hmessages, hcount, open_request_counter_exact readers strings askedOnce s (Run.of_foldlM hs)⟩

end FirstTree
