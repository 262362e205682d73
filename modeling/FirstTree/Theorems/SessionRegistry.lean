import FirstTree.Client.SessionRegistry

/-!
# What the session registry keeps on disk

Every write carries the nonces of memory, the mapping set on disk is that of the latest call that was written, and the nonce of a chat
changes only where a Reset begins: at its first rotation since the load, or at one that follows a durable Reset. That the loaded
nonce is replaced without a `markResetNonceDurable` before is how a Reset after a restart begins.
-/

namespace FirstTree

open Runs RegistryHost SessionRegistry

variable {Chat : Type}

/-- The operation rotates the nonce of the chat. -/
def RotatesNonce (chatId : Chat) (op : Op Chat) : Prop := ∃ uuid, op = .rotateFreshStartNonce chatId uuid

/-- After these operations the last Reset of the chat was marked durable. -/
def FollowsDurableMark (chatId : Chat) (ops : List (Op Chat)) : Prop :=
  ∃ before after, ops = before ++ .markResetNonceDurable chatId :: after ∧ ∀ op ∈ after, ¬ RotatesNonce chatId op

/-- After these operations no Reset of the chat is under way: none was begun, or the last was marked durable. -/
def NoResetUnderWay (chatId : Chat) (ops : List (Op Chat)) : Prop :=
  (∀ op ∈ ops, ¬ RotatesNonce chatId op) ∨ FollowsDurableMark chatId ops

/-- After these operations a Reset of the chat is under way: its nonce was rotated and not marked durable since. -/
def ResetUnderWay (chatId : Chat) (ops : List (Op Chat)) : Prop :=
  ∃ before uuid after, ops = before ++ Op.rotateFreshStartNonce chatId uuid :: after ∧ Op.markResetNonceDurable chatId ∉ after

namespace SessionRegistryAux

/-! ## Resets of a run -/

/-- With no Reset under way, none is after an operation that does not rotate. -/
theorem noResetUnderWay_concat {chatId : Chat} {ops : List (Op Chat)} {op : Op Chat} (h : NoResetUnderWay chatId ops)
    (hop : ¬ RotatesNonce chatId op) : NoResetUnderWay chatId (ops ++ [op]) := by
  rcases h with h | ⟨before, after, rfl, hafter⟩
  · refine .inl fun o ho => ?_
    rcases List.mem_append.mp ho with ho | ho
    · exact h o ho
    · rw [List.mem_singleton.mp ho]
      exact hop
  · refine .inr ⟨before, after ++ [op], by simp, fun o ho => ?_⟩
    rcases List.mem_append.mp ho with ho | ho
    · exact hafter o ho
    · rw [List.mem_singleton.mp ho]
      exact hop

/-- A Reset that is under way after an operation was under way before it, or was begun by it; the operation did not end it. -/
theorem resetUnderWay_concat {chatId : Chat} {ops : List (Op Chat)} {op : Op Chat} (h : ResetUnderWay chatId (ops ++ [op])) :
    (ResetUnderWay chatId ops ∨ RotatesNonce chatId op) ∧ op ≠ .markResetNonceDurable chatId := by
  obtain ⟨before, uuid, after, heq, hafter⟩ := h
  rcases List.eq_nil_or_concat after with rfl | ⟨after, last, rfl⟩
  · obtain ⟨_, hop⟩ := List.append_inj' heq rfl
    obtain rfl := List.singleton_inj.mp hop
    exact ⟨.inr ⟨uuid, rfl⟩, nofun⟩
  · rw [List.concat_eq_append] at heq hafter
    have heq : ops ++ [op] = (before ++ .rotateFreshStartNonce chatId uuid :: after) ++ [last] := by simpa using heq
    obtain ⟨hops, hop⟩ := List.append_inj' heq rfl
    obtain rfl := List.singleton_inj.mp hop
    refine ⟨.inl ⟨before, uuid, after, hops, fun hm => hafter (List.mem_append_left _ hm)⟩, ?_⟩
    rintro rfl
    exact hafter (List.mem_append_right _ List.mem_cons_self)

/-! ## One write -/

/-- A write that throws changes nothing but the pending snapshot; one that returns puts its map and the nonces on disk. -/
theorem writeNow_cases (h : RegistryHost Chat) (arg : RegistryArgument Chat) (fails : Bool) :
    h.writeNow arg fails = (false, { h with registry := h.registry.clearPendingWrite }) ∨
      ∃ data, h.writeNow arg fails =
          (true, ⟨h.registry.clearPendingWrite, some (.data data), h.calls, h.written ++ [arg.call]⟩) ∧
        persistEntries arg.entries = some data.entries ∧
          data.freshStartNonces = h.registry.freshStartNonces.entries.map fun e => (e.1, some e.2.val) := by
  unfold writeNow writeToDisk registryData
  cases hp : persistEntries arg.entries with
  | none => exact .inl rfl
  | some persisted =>
    cases fails with
    | true => exact .inl rfl
    | false => exact .inr ⟨_, rfl, rfl, rfl⟩

/-- A pending snapshot is written as a flush of it is, whether the timer is still set or not. -/
theorem flushPending_some {h : RegistryHost Chat} {arg : RegistryArgument Chat} (harg : h.registry.pendingEntries = some arg)
    (timer fails : Bool) :
    flushPending { h with registry := { h.registry with writeTimer := timer } } fails = (h.writeNow arg fails).2 := by
  unfold flushPending
  dsimp only
  rw [harg]
  unfold writeNow writeToDisk registryData clearPendingWrite
  dsimp only
  cases persistEntries arg.entries with
  | none => rfl
  | some persisted => cases fails <;> rfl

/-- Without a pending snapshot nothing is written. -/
theorem flushPending_none (h : RegistryHost Chat) (hnone : h.registry.pendingEntries = none) (fails : Bool) :
    flushPending h fails = h := by
  unfold flushPending
  rw [hnone]

end SessionRegistryAux

variable [DecidableEq Chat]

/-- What holds along every run of a registry that was loaded from a file, where the nonce of a chat may change after the operations
that `mayRotate` names. -/
structure KeepsRegistry (mayRotate : Chat → List (Op Chat) → Prop) (file : Option (RegistryFile Chat)) : Prop where
  tombstones : ∀ ops h op h', Run (ofPartial step) (loaded file) ops h → step h op = some h' → h'.written ≠ h.written →
    ∃ data, h'.file = some (.data data) ∧ ∀ chatId nonce, h.registry.getFreshStartNonce chatId = some nonce →
      (chatId, some nonce.val) ∈ data.freshStartNonces
  nonces : ∀ ops h op h' chatId, Run (ofPartial step) (loaded file) ops h → step h op = some h' →
    h'.registry.getFreshStartNonce chatId ≠ h.registry.getFreshStartNonce chatId → RotatesNonce chatId op ∧ mayRotate chatId ops
  retried : ∀ ops h chatId uuid, Run (ofPartial step) (loaded file) ops h → ResetUnderWay chatId ops →
    ∃ nonce, h.registry.getFreshStartNonce chatId = some nonce ∧
      h.registry.rotateFreshStartNonce chatId uuid = (nonce, h.registry)
  newest : ∀ ops h, Run (ofPartial step) (loaded file) ops h →
    h.written.Pairwise (· < ·) ∧ (h.written = [] → h.file = file) ∧
      ∀ n, h.written.getLast? = some n → ∃ entries data, h.calls[n]? = some entries ∧ h.file = some (.data data) ∧
        persistEntries entries = some data.entries

namespace SessionRegistryAux

/-! ## One step -/

/-- The operation is about no Reset. -/
def NoReset (op : Op Chat) : Prop := (∀ chatId, ¬ RotatesNonce chatId op) ∧ ∀ chatId, op ≠ .markResetNonceDurable chatId

/-- What a step can do: rotate a nonce, mark one durable, keep a snapshot, unset the timer, or write the pending snapshot or the
argument of the call. -/
theorem step_cases {h h' : RegistryHost Chat} {op : Op Chat} (hs : step h op = some h') :
    (∃ chatId uuid, op = .rotateFreshStartNonce chatId uuid ∧
        h' = { h with registry := (h.registry.rotateFreshStartNonce chatId uuid).2 }) ∨
      (∃ chatId, op = .markResetNonceDurable chatId ∧ h' = { h with registry := h.registry.markResetNonceDurable chatId }) ∨
      NoReset op ∧
        ((∃ entries, h' = h.save entries) ∨ h' = { h with registry := { h.registry with writeTimer := false } } ∨
          ∃ arg calls fails,
            (h.registry.pendingEntries = some arg ∧ calls = h.calls ∨ ∃ entries, arg = h.argument entries ∧
              calls = h.calls ++ [entries]) ∧ h' = (writeNow { h with calls } arg fails).2) := by
  have hquiet : ∀ {op : Op Chat}, (∀ c u, op ≠ .rotateFreshStartNonce c u) → (∀ c, op ≠ .markResetNonceDurable c) → NoReset op :=
    fun hr hm => ⟨fun c ⟨u, hu⟩ => hr c u hu, hm⟩
  cases op with
  | rotateFreshStartNonce chatId uuid => exact .inl ⟨chatId, uuid, rfl, (Option.some.inj hs).symm⟩
  | markResetNonceDurable chatId => exact .inr (.inl ⟨chatId, rfl, (Option.some.inj hs).symm⟩)
  | save entries =>
    exact .inr (.inr ⟨hquiet (fun _ _ => nofun) (fun _ => nofun), .inl ⟨entries, (Option.some.inj hs).symm⟩⟩)
  | timerFires fails =>
    refine .inr (.inr ⟨hquiet (fun _ _ => nofun) (fun _ => nofun), .inr ?_⟩)
    simp only [step] at hs
    split at hs
    · have hs := Option.some.inj hs
      cases hp : h.registry.pendingEntries with
      | none =>
        refine .inl (hs.symm.trans ?_)
        exact flushPending_none { h with registry := { h.registry with writeTimer := false } } hp fails
      | some arg =>
        refine .inr ⟨arg, h.calls, fails, .inl ⟨rfl, rfl⟩, hs.symm.trans ?_⟩
        exact flushPending_some hp false fails
    · cases hs
  | flush entries fails =>
    refine .inr (.inr ⟨hquiet (fun _ _ => nofun) (fun _ => nofun), .inr (.inr ?_)⟩)
    exact ⟨h.argument entries, h.calls ++ [entries], fails, .inr ⟨entries, rfl, rfl⟩, (Option.some.inj hs).symm⟩
  | flushOrThrow entries fails =>
    refine .inr (.inr ⟨hquiet (fun _ _ => nofun) (fun _ => nofun), .inr (.inr ?_)⟩)
    exact ⟨h.argument entries, h.calls ++ [entries], fails, .inr ⟨entries, rfl, rfl⟩, (Option.some.inj hs).symm⟩
  | dispose fails =>
    refine .inr (.inr ⟨hquiet (fun _ _ => nofun) (fun _ => nofun), .inr ?_⟩)
    have hs := Option.some.inj hs
    unfold dispose at hs
    cases hp : h.registry.pendingEntries with
    | none =>
      rw [hp] at hs
      exact .inl hs.symm
    | some arg =>
      rw [hp] at hs
      exact .inr ⟨arg, h.calls, fails, .inl ⟨rfl, rfl⟩, hs.symm.trans (flushPending_some hp h.registry.writeTimer fails)⟩

/-! ## A run -/

/-- What every step keeps: what is written so far, and which chats a Reset is under way for. -/
structure RegistryOk (file : Option (RegistryFile Chat)) (ops : List (Op Chat)) (h : RegistryHost Chat) : Prop where
  pending : ∀ arg, h.registry.pendingEntries = some arg → h.calls[arg.call]? = some arg.entries ∧ ∀ n ∈ h.written, n < arg.call
  made : ∀ n ∈ h.written, n < h.calls.length
  increasing : h.written.Pairwise (· < ·)
  unwritten : h.written = [] → h.file = file
  last : ∀ n, h.written.getLast? = some n → ∃ entries data, h.calls[n]? = some entries ∧ h.file = some (.data data) ∧
    persistEntries entries = some data.entries
  rotations : ∀ chatId nonce, h.registry.pendingResetRotations.get? chatId = some nonce →
    h.registry.freshStartNonces.get? chatId = some nonce
  idle : ∀ chatId, h.registry.pendingResetRotations.get? chatId = none → NoResetUnderWay chatId ops
  busy : ∀ chatId, ResetUnderWay chatId ops → h.registry.pendingResetRotations.get? chatId ≠ none

/-- A registry that was loaded keeps it. -/
theorem registryOk_loaded (file : Option (RegistryFile Chat)) : RegistryOk file [] (loaded file) where
  pending arg harg := by cases harg
  made n hn := absurd hn List.not_mem_nil
  increasing := .nil
  unwritten _ := rfl
  last n hn := by cases hn
  rotations chatId nonce hn := by cases hn
  idle chatId _ := .inl fun op hop => absurd hop List.not_mem_nil
  busy chatId hbusy := by
    obtain ⟨before, uuid, after, heq, _⟩ := hbusy
    exact absurd heq.symm (by simp)

/-- A step that leaves the calls, the writes and the file, and takes no new snapshot. -/
theorem registryOk_registry {file : Option (RegistryFile Chat)} {ops : List (Op Chat)} {op : Op Chat} {h : RegistryHost Chat}
    (hok : RegistryOk file ops h) {r : SessionRegistry Chat}
    (hpending : r.pendingEntries = h.registry.pendingEntries ∨ r.pendingEntries = none)
    (hrotations : ∀ chatId nonce, r.pendingResetRotations.get? chatId = some nonce → r.freshStartNonces.get? chatId = some nonce)
    (hidle : ∀ chatId, r.pendingResetRotations.get? chatId = none → NoResetUnderWay chatId (ops ++ [op]))
    (hbusy : ∀ chatId, ResetUnderWay chatId (ops ++ [op]) → r.pendingResetRotations.get? chatId ≠ none) :
    RegistryOk file (ops ++ [op]) { h with registry := r } where
  pending arg harg := by
    rcases hpending with hp | hp
    · exact hok.pending arg (hp ▸ harg)
    · rw [show ({ h with registry := r } : RegistryHost Chat).registry.pendingEntries = none from hp] at harg
      cases harg
  made := hok.made
  increasing := hok.increasing
  unwritten := hok.unwritten
  last := hok.last
  rotations := hrotations
  idle := hidle
  busy := hbusy

/-- A write of a snapshot that is newer than what was written. -/
theorem registryOk_write {file : Option (RegistryFile Chat)} {ops : List (Op Chat)} {op : Op Chat} {h : RegistryHost Chat}
    (hok : RegistryOk file ops h) (hop : NoReset op) {calls : List (OrderedMap Chat RegistryEntry)}
    (hcalls : ∀ (n : Nat) entries, h.calls[n]? = some entries → calls[n]? = some entries) {arg : RegistryArgument Chat}
    (harg : calls[arg.call]? = some arg.entries) (hnewer : ∀ n ∈ h.written, n < arg.call) (fails : Bool) :
    RegistryOk file (ops ++ [op]) (writeNow { h with calls } arg fails).2 := by
  have hlt : arg.call < calls.length := (List.getElem?_eq_some_iff.mp harg).1
  have hidle : ∀ chatId, h.registry.pendingResetRotations.get? chatId = none → NoResetUnderWay chatId (ops ++ [op]) :=
    fun chatId hn => noResetUnderWay_concat (hok.idle chatId hn) (hop.1 chatId)
  have hbusy : ∀ chatId, ResetUnderWay chatId (ops ++ [op]) → h.registry.pendingResetRotations.get? chatId ≠ none := by
    intro chatId hb
    rcases (resetUnderWay_concat hb).1 with hb | hrotates
    · exact hok.busy chatId hb
    · exact absurd hrotates (hop.1 chatId)
  have hpending : ∀ arg : RegistryArgument Chat, h.registry.clearPendingWrite.pendingEntries ≠ some arg := nofun
  rcases writeNow_cases { h with calls } arg fails with heq | ⟨data, heq, hpersisted, _⟩
  · rw [heq]
    refine ⟨fun a ha => absurd ha (hpending a), fun n hn => Nat.lt_trans (hnewer n hn) hlt, hok.increasing, hok.unwritten, ?_,
      hok.rotations, hidle, hbusy⟩
    intro n hn
    obtain ⟨entries, data, hentries, hfile, hp⟩ := hok.last n hn
    exact ⟨entries, data, hcalls n entries hentries, hfile, hp⟩
  · rw [heq]
    refine ⟨fun a ha => absurd ha (hpending a), fun n hn => ?_, ?_, fun hnil => ?_, fun n hn => ?_, hok.rotations, hidle, hbusy⟩
    · rcases List.mem_append.mp hn with hn | hn
      · exact Nat.lt_trans (hnewer n hn) hlt
      · rw [List.mem_singleton.mp hn]
        exact hlt
    · refine List.pairwise_append.mpr ⟨hok.increasing, List.pairwise_singleton _ _, fun n hn m hm => ?_⟩
      rw [List.mem_singleton.mp hm]
      exact hnewer n hn
    · exact absurd hnil (by simp)
    · dsimp only at hn
      rw [List.getLast?_append, List.getLast?_singleton, Option.some_or] at hn
      obtain rfl := Option.some.inj hn
      exact ⟨arg.entries, data, harg, rfl, hpersisted⟩

/-- Every step keeps it. -/
theorem registryOk_step {file : Option (RegistryFile Chat)} {ops : List (Op Chat)} {op : Op Chat} {h h' : RegistryHost Chat}
    (hok : RegistryOk file ops h) (hs : step h op = some h') : RegistryOk file (ops ++ [op]) h' := by
  rcases step_cases hs with ⟨chatId, uuid, rfl, rfl⟩ | ⟨chatId, rfl, rfl⟩ |
    ⟨hop, ⟨entries, rfl⟩ | rfl | ⟨arg, calls, fails, harg, rfl⟩⟩
  · have hother : ∀ c, c ≠ chatId → ¬ RotatesNonce c (.rotateFreshStartNonce chatId uuid) := by
      rintro c hne ⟨u, hu⟩
      cases hu
      exact hne rfl
    unfold rotateFreshStartNonce
    cases hp : h.registry.pendingResetRotations.get? chatId with
    | some nonce =>
      refine registryOk_registry hok (.inl rfl) hok.rotations (fun c hc => ?_) (fun c hc => ?_)
      · have hne : c ≠ chatId := by
          rintro rfl
          rw [hp] at hc
          cases hc
        exact noResetUnderWay_concat (hok.idle c hc) (hother c hne)
      · by_cases hcc : c = chatId
        · rw [hcc, hp]
          exact Option.some_ne_none _
        · exact hok.busy c ((resetUnderWay_concat hc).1.resolve_right (hother c hcc))
    | none =>
      refine registryOk_registry hok (.inl rfl) (fun c nonce hc => ?_) (fun c hc => ?_) (fun c hc => ?_)
      · dsimp only at hc ⊢
        rw [OrderedMap.get?_set] at hc ⊢
        by_cases hcc : chatId = c
        · rwa [if_pos hcc] at hc ⊢
        · rw [if_neg hcc] at hc ⊢
          exact hok.rotations c nonce hc
      · dsimp only at hc
        rw [OrderedMap.get?_set] at hc
        by_cases hcc : chatId = c
        · rw [if_pos hcc] at hc
          cases hc
        · rw [if_neg hcc] at hc
          exact noResetUnderWay_concat (hok.idle c hc) (hother c (Ne.symm hcc))
      · dsimp only
        rw [OrderedMap.get?_set]
        by_cases hcc : chatId = c
        · rw [if_pos hcc]
          exact Option.some_ne_none _
        · rw [if_neg hcc]
          exact hok.busy c ((resetUnderWay_concat hc).1.resolve_right (hother c (Ne.symm hcc)))
  · have hnot : ∀ c, ¬ RotatesNonce c (Op.markResetNonceDurable chatId) := fun c ⟨u, hu⟩ => by cases hu
    refine registryOk_registry hok (.inl rfl) (fun c nonce hc => ?_) (fun c hc => ?_) (fun c hc => ?_)
    · simp only [markResetNonceDurable] at hc
      rw [OrderedMap.get?_erase] at hc
      by_cases hcc : chatId = c
      · rw [if_pos hcc] at hc
        cases hc
      · rw [if_neg hcc] at hc
        exact hok.rotations c nonce hc
    · by_cases hcc : chatId = c
      · subst hcc
        exact .inr ⟨ops, [], rfl, fun op hop => absurd hop List.not_mem_nil⟩
      · simp only [markResetNonceDurable] at hc
        rw [OrderedMap.get?_erase, if_neg hcc] at hc
        exact noResetUnderWay_concat (hok.idle c hc) (hnot c)
    · obtain ⟨hb, hne⟩ := resetUnderWay_concat hc
      have hcc : chatId ≠ c := fun hcc => hne (hcc ▸ rfl)
      simp only [markResetNonceDurable]
      rw [OrderedMap.get?_erase, if_neg hcc]
      exact hok.busy c (hb.resolve_right (hnot c))
  · have hkeep : ∀ (n : Nat) e, h.calls[n]? = some e → (h.calls ++ [entries])[n]? = some e := by
      intro n e he
      rw [List.getElem?_append_left (List.getElem?_eq_some_iff.mp he).1, he]
    refine ⟨fun a ha => ?_, fun n hn => ?_, hok.increasing, hok.unwritten, fun n hn => ?_, hok.rotations, fun c hc => ?_,
      fun c hc => ?_⟩
    · obtain rfl := Option.some.inj ha
      exact ⟨by simp [argument, save], fun n hn => hok.made n hn⟩
    · have := hok.made n hn
      simp only [save, List.length_append, List.length_singleton]
      omega
    · obtain ⟨e, data, he, hfile, hp⟩ := hok.last n hn
      exact ⟨e, data, hkeep n e he, hfile, hp⟩
    · exact noResetUnderWay_concat (hok.idle c hc) (hop.1 c)
    · exact hok.busy c ((resetUnderWay_concat hc).1.resolve_right (hop.1 c))
  · exact registryOk_registry hok (.inl rfl) hok.rotations (fun c hc => noResetUnderWay_concat (hok.idle c hc) (hop.1 c))
      fun c hc => hok.busy c ((resetUnderWay_concat hc).1.resolve_right (hop.1 c))
  · rcases harg with ⟨hp, rfl⟩ | ⟨entries, rfl, rfl⟩
    · obtain ⟨hcall, hnewer⟩ := hok.pending arg hp
      exact registryOk_write hok hop (fun _ _ he => he) hcall hnewer fails
    · refine registryOk_write hok hop (fun n e he => ?_) (by simp [argument]) (fun n hn => hok.made n hn) fails
      rw [List.getElem?_append_left (List.getElem?_eq_some_iff.mp he).1, he]

/-- Every run keeps it. -/
theorem registryOk_run {file : Option (RegistryFile Chat)} {ops : List (Op Chat)} {h : RegistryHost Chat}
    (hr : Run (ofPartial step) (loaded file) ops h) : RegistryOk file ops h := by
  induction hr with
  | nil => exact registryOk_loaded file
  | snoc _ hs ih => exact registryOk_step ih hs

/-- A step changes a nonce only as a rotation of the chat, while no Reset of it is under way. -/
theorem nonce_step {file : Option (RegistryFile Chat)} {ops : List (Op Chat)} {op : Op Chat} {h h' : RegistryHost Chat}
    {chatId : Chat} (hok : RegistryOk file ops h) (hs : step h op = some h')
    (hne : h'.registry.getFreshStartNonce chatId ≠ h.registry.getFreshStartNonce chatId) :
    RotatesNonce chatId op ∧ NoResetUnderWay chatId ops := by
  rcases step_cases hs with ⟨c, uuid, rfl, rfl⟩ | ⟨c, rfl, rfl⟩ | ⟨_, ⟨entries, rfl⟩ | rfl | ⟨arg, calls, fails, _, rfl⟩⟩
  · simp only [getFreshStartNonce, rotateFreshStartNonce] at hne
    cases hp : h.registry.pendingResetRotations.get? c with
    | some nonce =>
      rw [hp] at hne
      exact absurd rfl hne
    | none =>
      rw [hp] at hne
      dsimp only at hne
      rw [OrderedMap.get?_set] at hne
      by_cases hcc : c = chatId
      · subst hcc
        exact ⟨⟨uuid, rfl⟩, hok.idle c hp⟩
      · rw [if_neg hcc] at hne
        exact absurd rfl hne
  · exact absurd rfl hne
  · exact absurd rfl hne
  · exact absurd rfl hne
  · rcases writeNow_cases { h with calls } arg fails with heq | ⟨data, heq, _, _⟩
    · rw [heq] at hne
      exact absurd rfl hne
    · rw [heq] at hne
      exact absurd rfl hne

/-- A step that writes puts every nonce of memory on disk. -/
theorem tombstones_step {op : Op Chat} {h h' : RegistryHost Chat} (hs : step h op = some h') (hne : h'.written ≠ h.written) :
    ∃ data, h'.file = some (.data data) ∧ ∀ chatId nonce, h.registry.getFreshStartNonce chatId = some nonce →
      (chatId, some nonce.val) ∈ data.freshStartNonces := by
  rcases step_cases hs with ⟨c, uuid, rfl, rfl⟩ | ⟨c, rfl, rfl⟩ | ⟨_, ⟨entries, rfl⟩ | rfl | ⟨arg, calls, fails, _, rfl⟩⟩
  · exact absurd rfl hne
  · exact absurd rfl hne
  · exact absurd rfl hne
  · exact absurd rfl hne
  · rcases writeNow_cases { h with calls } arg fails with heq | ⟨data, heq, _, hnonces⟩
    · rw [heq] at hne
      exact absurd rfl hne
    · rw [heq]
      refine ⟨data, rfl, fun chatId nonce hn => ?_⟩
      rw [hnonces]
      exact List.mem_map.mpr ⟨(chatId, nonce), OrderedMap.mem_entries.mpr hn, rfl⟩

end SessionRegistryAux

open SessionRegistryAux

/-- Along every run of a registry that was loaded, every write carries the nonces of memory, a nonce changes only by a rotation while
no Reset of the chat is under way, a repeated Reset keeps its nonce, and the file holds the map of the latest call that was
written. -/
theorem registry_keeps_tombstones (file : Option (RegistryFile Chat)) : KeepsRegistry NoResetUnderWay file where
  tombstones ops h op h' _ hs hne := tombstones_step hs hne
  nonces ops h op h' chatId hr hs hne := nonce_step (registryOk_run hr) hs hne
  retried ops h chatId uuid hr hbusy := by
    have hok := registryOk_run hr
    obtain ⟨nonce, hn⟩ := Option.ne_none_iff_exists'.mp (hok.busy chatId hbusy)
    refine ⟨nonce, hok.rotations chatId nonce hn, ?_⟩
    unfold rotateFreshStartNonce
    rw [hn]
  newest ops h hr := ⟨(registryOk_run hr).increasing, (registryOk_run hr).unwritten, (registryOk_run hr).last⟩

/-- A registry file with the nonce an earlier Reset left. -/
def resetBefore : RegistryFile Nat := .data ⟨registryVersion, [], [(1, some "first")]⟩

/-- The first Reset after the load replaces the nonce, and no Reset of this run was marked durable before. -/
theorem first_rotation_replaces : ¬ KeepsRegistry FollowsDurableMark (some resetBefore) := by
  intro hkeeps
  have hrun : Run (ofPartial step) (loaded (some resetBefore)) [] (loaded (some resetBefore)) := Run.nil _
  have hchanges : ((loaded (some resetBefore)).registry.rotateFreshStartNonce 1 ⟨"second", by decide⟩).2.getFreshStartNonce 1 ≠
      (loaded (some resetBefore)).registry.getFreshStartNonce 1 := by
    decide
  obtain ⟨_, before, after, heq, _⟩ := hkeeps.nonces [] _ (.rotateFreshStartNonce 1 ⟨"second", by decide⟩) _ 1 hrun rfl hchanges
  exact absurd heq.symm (by simp)

end FirstTree
