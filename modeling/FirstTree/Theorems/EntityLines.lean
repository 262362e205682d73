import Mathlib.Data.List.Dedup
import FirstTree.Server.EntityLines

/-!
# One attention line, one chat

The keys that the webhooks and the follow build are no legacy spelling, so every row of a pair and an entity has one key, which
the lock of the entity divides from the rows of the other entities. Each of the five programs is specified on the rows of its
lock, and the specification holds of every commit of every interleaving.
-/

namespace FirstTree

open Runs Transactions EntityKey EntityLines AgentRuntime

variable {Agent Chat : Type} [DecidableEq Agent] [DecidableEq Chat]

namespace EntityLines

/-- There is a row of the key, in the chat. -/
def LineAt (rows : Rows (LineKey Agent) (Line Chat)) (key : LineKey Agent) (chatId : Chat) : Prop :=
  ∃ line, rows.lookup key = some line ∧ line.chatId = chatId

/-- A placement that writes or reuses a line has the chat of the row. -/
def Placed (rows : Rows (LineKey Agent) (Line Chat)) (key : LineKey Agent) (placed : Option (Placement Chat)) : Prop :=
  ∀ p, placed = some p → p.boundVia ≠ none → LineAt rows key p.chatId

/-- A follow without a conflict has its line in the chat it asked for, and one with a conflict has left the chats of all rows. -/
def Followed (before after : Rows (LineKey Agent) (Line Chat)) (key : LineKey Agent) (chatId : Chat) :
    ScmFollowLineResult Chat (GithubFollowLine Chat) → Prop
  | .line _ _ => LineAt after key chatId
  | .conflict _ _ => ∀ k, (after.lookup k).map (·.chatId) = (before.lookup k).map (·.chatId)

/-- What the transactions on entities that are no commits promise of the rows at their commit. -/
def CommitMeets (e : Commit (LineCall Agent Chat) (LineKey Agent) (Line Chat) (LineOutcome Chat)) : Prop :=
  match e.call with
  | .existingLine human delegate (.numbered ref) => ∃ found, e.result = .existingLine found ∧
      ∀ chat, found = some chat → LineAt e.after (lineKey human delegate ref.entity) chat
  | .target params (.numbered ref) _ => ∃ placed, e.result = .target placed ∧
      Placed e.after (lineKey params.humanAgentId params.delegateAgentId ref.entity) placed
  | .personnel params (.numbered ref) _ => ∃ placed, e.result = .personnel placed ∧
      Placed e.after (lineKey params.humanAgentId params.delegateAgentId ref.entity) (placed.map (·.1))
  | .follow params ref => ∃ result, e.result = .follow result ∧
      Followed e.before e.after (lineKey params.humanAgentId params.delegateAgentId ref.entity) params.chatId result
  | _ => True

/-- One attention line, one chat: a pair and an entity have at most one row, whatever the spelling of a discussion, and every commit
meets its promise. -/
structure OneLineOneChat (s : LineSystem Agent Chat) : Prop where
  unique : ∀ k ∈ s.store.rows, ∀ k' ∈ s.store.rows, k.entityType ≠ .commit → k.humanAgentId = k'.humanAgentId →
    k.delegateAgentId = k'.delegateAgentId → k.entityType = k'.entityType →
    canonicalizeGithubEntityKey k.entityType k.entityKey = canonicalizeGithubEntityKey k'.entityType k'.entityKey → k = k'
  commits : ∀ e ∈ s.store.commits, CommitMeets e

/-- In every run from an empty table a line has one chat. -/
def AlwaysOneChat (steps : LineSystem Agent Chat → JobOp (LineCall Agent Chat) Nat → LineSystem Agent Chat → Prop) : Prop :=
  ∀ ops s, Run steps (.idle ⟨∅, []⟩) ops s → OneLineOneChat s

end EntityLines

namespace EntityLinesAux

/-! ## Keys -/

/-- A key with a number. -/
def Numbered (key : String) : Prop := ∃ (repo : String) (number : Nat), key = repo ++ "#" ++ toString number

/-- The digits of a number. -/
theorem toString_digits (number : Nat) : ∀ c ∈ (toString number).toList, c.isDigit = true := by
  intro c hc
  have hdigits : (toString number).toList = Nat.toDigits 10 number := Nat.toList_repr
  rw [hdigits] at hc
  exact Nat.isDigit_of_mem_toDigits (by decide) (by decide) hc

/-- The characters of a key with a number. -/
theorem toList_numbered (repo : String) (number : Nat) :
    (repo ++ "#" ++ toString number).toList = repo.toList ++ '#' :: (toString number).toList := by
  simp [String.toList_append]

/-- A split at the last place of an element. -/
theorem splitLast_append {c : Char} {before after : List Char} (h : c ∉ after) :
    splitLast c (before ++ c :: after) = some (before, after) := by
  have hnone : ∀ l : List Char, c ∉ l → splitLast c l = none := by
    intro l hl
    induction l with
    | nil => rfl
    | cons x l ih =>
      rw [List.mem_cons, not_or] at hl
      simp only [splitLast, ih hl.2, if_neg (Ne.symm hl.1)]
  induction before with
  | nil => simp only [List.nil_append, splitLast, hnone after h, if_pos]
  | cons x before ih => simp only [List.cons_append, splitLast, ih]

/-- A digit is no hash. -/
theorem hash_notMem {number : List Char} (h : ∀ c ∈ number, c.isDigit = true) : '#' ∉ number := fun hmem => by
  have hdigit := h '#' hmem
  revert hdigit
  decide

/-- A match of a key. -/
theorem matchKey_some {word : List Char} {key : String} {owner repo number : List Char}
    (h : matchKey word key = some (owner, repo, number)) : number.all (·.isDigit) = true := by
  simp only [matchKey, Option.bind_eq_bind, Option.bind_eq_some_iff] at h
  obtain ⟨⟨slug, suffix⟩, _, h⟩ := h
  split at h
  · next hcond =>
    obtain ⟨_, _, _, _, _, _, _, hdigits⟩ := hcond
    obtain ⟨rfl, rfl, rfl⟩ : _ ∧ _ ∧ suffix.drop word.length = number := by simpa using h
    exact hdigits
  · cases h

/-- A key with a number is no legacy spelling. -/
theorem matchKey_numbered (repo : String) (number : Nat) :
    matchKey "discussion-".toList (repo ++ "#" ++ toString number) = none := by
  have hdigits := toString_digits number
  simp only [matchKey, toList_numbered, splitLast_append (hash_notMem hdigits), Option.bind_eq_bind, Option.bind_some]
  refine if_neg fun hcond => ?_
  obtain ⟨_, _, _, _, _, hprefix, _, _⟩ := hcond
  rw [List.isPrefixOf_iff_prefix] at hprefix
  have hd : 'd' ∈ (toString number).toList := hprefix.subset (by decide)
  have hdigit := hdigits 'd' hd
  revert hdigit
  decide

/-- A key with a number is canonical. -/
theorem canonicalize_numbered {key : String} (h : Numbered key) (entityType : GithubEntityType) :
    canonicalizeGithubEntityKey entityType key = key := by
  obtain ⟨repo, number, rfl⟩ := h
  unfold canonicalizeGithubEntityKey
  split
  · rfl
  · rw [matchKey_numbered]

/-- A legacy spelling has no number. -/
theorem not_numbered_of_legacy {key legacy : String} (h : legacyDiscussionEntityKey key = some legacy) : ¬ Numbered legacy := by
  rintro ⟨repo', number', hkey⟩
  obtain ⟨⟨owner, repo, number⟩, hmatch, rfl⟩ := Option.map_eq_some_iff.mp h
  have hdigits := List.all_eq_true.mp (matchKey_some hmatch)
  have hhash : '#' ∉ "discussion-".toList ++ number := by
    rw [List.mem_append, not_or]
    exact ⟨by decide, hash_notMem hdigits⟩
  have hlegacy : String.ofList (owner ++ '/' :: repo ++ '#' :: ("discussion-".toList ++ number)) = repo' ++ "#" ++
      toString number' := hkey
  have hlist : owner ++ '/' :: repo ++ '#' :: ("discussion-".toList ++ number) = repo'.toList ++
      '#' :: (toString number').toList := by
    rw [← toList_numbered, ← hlegacy]
    exact String.toList_ofList.symm
  have hsplit : splitLast '#' (owner ++ '/' :: repo ++ '#' :: ("discussion-".toList ++ number)) =
      some (owner ++ '/' :: repo, "discussion-".toList ++ number) := splitLast_append hhash
  rw [hlist, splitLast_append (hash_notMem (toString_digits number'))] at hsplit
  have hsuffix : (toString number').toList = "discussion-".toList ++ number := (Prod.mk.inj (Option.some.inj hsplit)).2
  have hd : 'd' ∈ (toString number').toList := hsuffix ▸ List.mem_append_left _ (by decide)
  have hdigit := toString_digits number' 'd' hd
  revert hdigit
  decide

/-- Of the candidates of a key with a number only the key has a number. -/
theorem eq_of_mem_candidates {entityType : GithubEntityType} {key key' : String} (h : entityType = .commit ∨ Numbered key)
    (h' : entityType = .commit ∨ Numbered key') (hmem : key' ∈ githubEntityKeyCandidates entityType key) : key' = key := by
  unfold githubEntityKeyCandidates at hmem
  split at hmem
  · exact List.mem_singleton.mp hmem
  · next hdiscussion =>
    rw [ne_eq, not_not] at hdiscussion
    have hkey := h.resolve_left (by rw [hdiscussion]; simp)
    have hkey' := h'.resolve_left (by rw [hdiscussion]; simp)
    simp only [List.mem_dedup, List.mem_filterMap, List.mem_cons, List.not_mem_nil, or_false, id, exists_eq_right] at hmem
    rcases hmem with hmem | hmem | hmem
    · exact Option.some.inj hmem
    · rw [canonicalize_numbered hkey] at hmem
      exact Option.some.inj hmem
    · exact absurd hkey' (not_numbered_of_legacy hmem.symm)

/-- The key is one of its candidates. -/
theorem mem_candidates (entityType : GithubEntityType) (key : String) : key ∈ githubEntityKeyCandidates entityType key := by
  unfold githubEntityKeyCandidates
  split
  · exact List.mem_singleton_self key
  · simp

/-- A key as the callers build it, of any commit or with a number. -/
def ValidKey (k : LineKey Agent) : Prop := k.entityType = .commit ∨ Numbered k.entityKey

omit [DecidableEq Agent] in
/-- An entity with a valid key is normalized. -/
theorem normalize_of_valid {human delegate : Agent} {entity : GithubEntity} (h : ValidKey (lineKey human delegate entity)) :
    normalizeGithubEntity entity = entity := by
  obtain ⟨type, key⟩ := entity
  rcases h with h | h
  · have hcommit : type = .commit := h
    subst hcommit
    rfl
  · have hkey : Numbered key := h
    simp only [normalizeGithubEntity, canonicalize_numbered hkey]

omit [DecidableEq Agent] in
/-- A row that a lookup of a valid entity finds has its key. -/
theorem key_of_candidate {human delegate : Agent} {entity : GithubEntity} (h : ValidKey (lineKey human delegate entity))
    {k : LineKey Agent} (hk : ValidKey k) (htype : k.entityType = entity.type)
    (hmem : k.entityKey ∈ githubEntityKeyCandidates entity.type entity.key) : k.entityKey = entity.key := by
  have hk' : entity.type = .commit ∨ Numbered k.entityKey := htype ▸ hk
  exact eq_of_mem_candidates h hk' hmem

/-! ## Reads -/

omit [DecidableEq Chat] in
/-- The filter of a lookup has at most the row of its key. -/
theorem filter_pair {human delegate : Agent} {entity : GithubEntity} (h : ValidKey (lineKey human delegate entity))
    {t : Rows (LineKey Agent) (Line Chat)} (ht : ∀ k ∈ t, ValidKey k) (active : Line Chat → Bool) :
    (t.entries.filter fun e => decide (e.1.humanAgentId = human ∧ e.1.delegateAgentId = delegate ∧ e.1.entityType = entity.type ∧
        e.1.entityKey ∈ githubEntityKeyCandidates entity.type entity.key) && active e.2) =
      ((t.lookup (lineKey human delegate entity)).filter active).toList.map fun line => ⟨lineKey human delegate entity, line⟩ := by
  rw [AssocList.filter_entries_of_key t (lineKey human delegate entity) fun e he hp => ?_]
  · have hself : ∀ line : Line Chat, (decide ((lineKey human delegate entity).humanAgentId = human ∧
        (lineKey human delegate entity).delegateAgentId = delegate ∧ (lineKey human delegate entity).entityType = entity.type ∧
        (lineKey human delegate entity).entityKey ∈ githubEntityKeyCandidates entity.type entity.key) && active line) =
          active line := by
      intro line
      rw [decide_eq_true ⟨rfl, rfl, rfl, mem_candidates entity.type entity.key⟩, Bool.true_and]
    simp only [hself]
  · simp only [Bool.and_eq_true, decide_eq_true_eq] at hp
    obtain ⟨⟨hhuman, hdelegate, htype, hkey⟩, _⟩ := hp
    have hvalid := ht e.1 (List.mem_keys_of_mem he)
    have heq := key_of_candidate h hvalid htype hkey
    obtain ⟨⟨human', delegate', type', key'⟩, line⟩ := e
    simp only at hhuman hdelegate htype heq
    simp only [lineKey, hhuman, hdelegate, htype, heq]

variable {mine : LineKey Agent → Prop} {base : Rows (LineKey Agent) (Line Chat)} {ws : List (Write (LineKey Agent) (Line Chat))}

omit [DecidableEq Chat] in
/-- A lookup of an entity with a number reads the row of its key. -/
theorem ensures_lookupMapping {human delegate : Agent} {entity : GithubEntity} (h : Numbered entity.key)
    (htype : entity.type ≠ .commit) (hmine : mine (lineKey human delegate entity)) :
    Ensures ValidKey mine base ws (lookupMapping human delegate entity : LineProgram Agent Chat _) fun found ws' =>
      ws' = ws ∧ found = ((applyWrites base ws).lookup (lineKey human delegate entity)).map fun line =>
        ⟨line.chatId, line.boundVia⟩ := by
  refine Ensures.mono (Ensures.select _) ?_
  rintro found ws' ⟨rfl, t, ht, rfl⟩
  refine ⟨rfl, ?_⟩
  have hactive : ∀ line : Line Chat, activeMappingProvenance entity.type line.boundVia = true :=
    fun line => decide_eq_true fun hcommit => absurd hcommit htype
  have hrows : lookupRows human delegate entity t =
      (t.lookup (lineKey human delegate entity)).map fun line => ⟨lineKey human delegate entity, line⟩ := by
    unfold lookupRows
    rw [filter_pair (Or.inr h) ht.valid fun line => activeMappingProvenance entity.type line.boundVia]
    cases t.lookup (lineKey human delegate entity) with
    | none => rfl
    | some line =>
      rw [Option.filter_some, if_pos (hactive line)]
      simp only [Option.toList_some, List.map_cons, List.map_nil, List.find?_cons, List.find?_nil, List.head?_cons, Option.map_some]
      split
      · rfl
      · rfl
  rw [hrows, ht.same _ hmine, Option.map_map]
  rfl

omit [DecidableEq Chat] in
/-- The row of a key after the last write of it. -/
theorem lookup_write (t : Rows (LineKey Agent) (Line Chat)) (ws : List (Write (LineKey Agent) (Line Chat))) (k : LineKey Agent)
    (line : Line Chat) : (applyWrites t (ws ++ [(k, some line)])).lookup k = some line := by
  rw [applyWrites_append]
  exact (lookup_applyWrite (applyWrites t ws) (k, some line) k).trans (if_pos rfl)

/-! ## Insertion -/

omit [DecidableEq Chat] in
/-- An insertion of an entity with a number: the row that is there, or a row in the given chat. -/
theorem ensures_insertMappingIfAbsent {params : InsertMapping Agent Chat} (h : Numbered params.entity.key)
    (htype : params.entity.type ≠ .commit) (hmine : mine (lineKey params.humanAgentId params.delegateAgentId params.entity)) :
    Ensures ValidKey mine base ws (insertMappingIfAbsent params) fun inserted ws' => ∃ line,
      (applyWrites base ws').lookup (lineKey params.humanAgentId params.delegateAgentId params.entity) = some line ∧
        line.chatId = inserted.chatId ∧
        ((applyWrites base ws).lookup (lineKey params.humanAgentId params.delegateAgentId params.entity) = none →
          inserted.inserted = true ∧ inserted.chatId = params.chatId) := by
  have hvalid : ValidKey (lineKey params.humanAgentId params.delegateAgentId params.entity) := Or.inr h
  unfold insertMappingIfAbsent
  rw [normalize_of_valid hvalid]
  refine Ensures.bind (ensures_lookupMapping h htype hmine) ?_
  rintro found ws' ⟨rfl, rfl⟩
  cases hrow : (applyWrites base ws').lookup (lineKey params.humanAgentId params.delegateAgentId params.entity) with
  | some line => exact Ensures.done ⟨line, hrow, rfl, fun hnone => by cases hnone⟩
  | none =>
    have hnot : ¬ (params.entity.type = .commit ∧ params.boundVia ∈ activeCommitBoundVia) := fun hcommit => htype hcommit.1
    simp only [Option.map_none, if_neg hnot]
    refine Ensures.bind (Ensures.mutate _ _) ?_
    rintro fresh ws'' ⟨t, ht, rfl, rfl⟩
    have hnone : t.lookup (lineKey params.humanAgentId params.delegateAgentId params.entity) = none := (ht.same _ hmine).trans hrow
    simp only [hnone, Option.isNone_none, Option.isSome_none, if_true, Bool.false_eq_true, if_false]
    exact Ensures.done ⟨_, lookup_write base ws' _ _, rfl, fun _ => ⟨rfl, rfl⟩⟩

omit [DecidableEq Chat] in
/-- The insertions of a resolution. -/
theorem ensures_bindLine {params : ResolveParams Agent Chat} {entity : GithubEntity} (h : Numbered entity.key)
    (htype : entity.type ≠ .commit)
    (hmine : mine (lineKey params.humanAgentId params.delegateAgentId entity)) (chatId : Chat) (boundVia : BoundVia) :
    Ensures ValidKey mine base ws (bindLine params entity chatId boundVia) fun inserted ws' => ∃ line,
      (applyWrites base ws').lookup (lineKey params.humanAgentId params.delegateAgentId entity) = some line ∧
        line.chatId = inserted.chatId := by
  refine Ensures.mono (ensures_insertMappingIfAbsent h htype hmine) ?_
  rintro inserted ws' ⟨line, hline, hchat, _⟩
  exact ⟨line, hline, hchat⟩

/-! ## Resolution -/

omit [DecidableEq Chat] in
/-- A placement of a line that is bound. -/
theorem placed_of_lineAt {rows : Rows (LineKey Agent) (Line Chat)} {key : LineKey Agent} {p : Placement Chat}
    (h : LineAt rows key p.chatId) : Placed rows key (some p) := by
  rintro p' heq _
  exact Option.some.inj heq ▸ h

variable {params : ResolveParams Agent Chat} {entity : GithubEntity}

omit [DecidableEq Chat] in
/-- A chat that is bound to the entity and returned. -/
theorem ensures_bound (h : Numbered entity.key) (htype : entity.type ≠ .commit)
    (hmine : mine (lineKey params.humanAgentId params.delegateAgentId entity)) (chatId : Chat) (boundVia : BoundVia)
    (created : InsertedMapping Chat → Bool) :
    Ensures ValidKey mine base ws (do
      let inserted ← bindLine params entity chatId boundVia
      return some (⟨inserted.chatId, created inserted, some inserted.boundVia⟩ : Placement Chat)) fun placed ws' =>
        Placed (applyWrites base ws') (lineKey params.humanAgentId params.delegateAgentId entity) placed := by
  refine Ensures.bind (ensures_bindLine h htype hmine chatId boundVia) ?_
  rintro inserted ws' ⟨line, hline, hchat⟩
  exact Ensures.done (placed_of_lineAt ⟨line, hline, hchat⟩)

/-- A fresh chat. -/
theorem ensures_placeFresh (h : Numbered entity.key) (htype : entity.type ≠ .commit)
    (hmine : mine (lineKey params.humanAgentId params.delegateAgentId entity)) :
    Ensures ValidKey mine base ws (placeFresh params entity) fun placed ws' =>
      Placed (applyWrites base ws') (lineKey params.humanAgentId params.delegateAgentId entity) placed := by
  unfold placeFresh
  split
  · exact Ensures.done fun p hp => by cases hp
  · split
    · exact Ensures.throws
    · exact ensures_bound h htype hmine _ .direct fun inserted => decide (inserted.chatId = _)

omit [DecidableEq Chat] in
/-- A chat that a provider task reuses. -/
theorem ensures_reuseForTask (h : Numbered entity.key) (htype : entity.type ≠ .commit)
    (hmine : mine (lineKey params.humanAgentId params.delegateAgentId entity)) :
    Ensures ValidKey mine base ws (reuseForTask params entity) fun placed ws' =>
      Placed (applyWrites base ws') (lineKey params.humanAgentId params.delegateAgentId entity) placed := by
  unfold reuseForTask
  refine Ensures.bind (Ensures.any _) fun found ws' _ => ?_
  cases found with
  | some chat => exact ensures_bound h htype hmine chat .humanFallback fun _ => false
  | none =>
    refine Ensures.bind (Ensures.any _) fun linked ws'' _ => ?_
    cases linked with
    | some linked => exact ensures_bound h htype hmine linked.chatId .fixesLink fun _ => false
    | none => exact Ensures.done fun p hp => by cases hp

/-- The resolution of a target. -/
theorem ensures_resolveTargetChat (h : Numbered entity.key) (htype : entity.type ≠ .commit)
    (hmine : mine (lineKey params.humanAgentId params.delegateAgentId entity)) (intent : TargetChatIntent Chat) :
    Ensures ValidKey mine base ws (resolveTargetChatInTransaction params entity intent) fun placed ws' =>
      Placed (applyWrites base ws') (lineKey params.humanAgentId params.delegateAgentId entity) placed := by
  have hvalid : ValidKey (lineKey params.humanAgentId params.delegateAgentId entity) := Or.inr h
  unfold resolveTargetChatInTransaction
  rw [normalize_of_valid hvalid]
  refine Ensures.bind (ensures_lookupMapping h htype hmine) ?_
  rintro found ws' ⟨rfl, rfl⟩
  cases hrow : (applyWrites base ws').lookup (lineKey params.humanAgentId params.delegateAgentId entity) with
  | some line => exact Ensures.done (placed_of_lineAt ⟨line, hrow, rfl⟩)
  | none =>
    cases intent with
    | reuseMembership chatId => exact Ensures.done fun p hp hbound => absurd (by cases hp; rfl) hbound
    | reuseWithLine chatId admits => exact ensures_bound h htype hmine chatId .humanFallback fun _ => false
    | strictNewLine => exact ensures_placeFresh h htype hmine
    | providerTaskTarget =>
      refine Ensures.bind (ensures_reuseForTask h htype hmine) fun placed ws'' hplaced => ?_
      cases placed with
      | some placed => exact Ensures.done hplaced
      | none => exact ensures_placeFresh h htype hmine

/-- The resolution of a personnel target. -/
theorem ensures_personnel (h : Numbered entity.key) (htype : entity.type ≠ .commit)
    (hmine : mine (lineKey params.humanAgentId params.delegateAgentId entity)) (answers : PersonnelAnswers Chat) :
    Ensures ValidKey mine base ws (resolveGithubPersonnelTargetChat params entity answers) fun placed ws' =>
      Placed (applyWrites base ws') (lineKey params.humanAgentId params.delegateAgentId entity) (placed.map (·.1)) := by
  unfold resolveGithubPersonnelTargetChat
  refine Ensures.bind (Ensures.any _) fun candidates ws' _ => ?_
  split
  · exact Ensures.done fun p hp => by cases hp
  · refine Ensures.bind (ensures_lookupMapping h htype hmine) ?_
    rintro found ws'' ⟨rfl, rfl⟩
    cases hrow : (applyWrites base ws'').lookup (lineKey params.humanAgentId params.delegateAgentId entity) with
    | some line => exact Ensures.done (placed_of_lineAt ⟨line, hrow, rfl⟩)
    | none =>
      have hplace : Ensures ValidKey mine base ws'' (placeDecided params entity answers.admission (answers.decision candidates))
          fun placed ws' => Placed (applyWrites base ws') (lineKey params.humanAgentId params.delegateAgentId entity) placed := by
        unfold placeDecided
        split
        · exact Ensures.throws
        · exact ensures_resolveTargetChat h htype hmine _
      refine Ensures.bind hplace fun placed ws' hplaced => Ensures.done ?_
      have hfst : (placed.map fun p => (p, false)).map (·.1) = placed := by
        cases placed with
        | none => rfl
        | some p => rfl
      rw [hfst]
      exact hplaced

omit [DecidableEq Chat] in
/-- The resolution of an existing line. -/
theorem ensures_existingLine {human delegate : Agent} (h : Numbered entity.key) (htype : entity.type ≠ .commit)
    (hmine : mine (lineKey human delegate entity)) :
    Ensures ValidKey mine base ws (resolveGithubExistingLineChat human delegate entity : LineProgram Agent Chat _) fun found ws' =>
      ∀ chat, found = some chat → LineAt (applyWrites base ws') (lineKey human delegate entity) chat := by
  unfold resolveGithubExistingLineChat
  refine Ensures.bind (ensures_lookupMapping h htype hmine) ?_
  rintro found ws' ⟨rfl, rfl⟩
  refine Ensures.done fun chat hchat => ?_
  rw [Option.map_map] at hchat
  obtain ⟨line, hline, rfl⟩ := Option.map_eq_some_iff.mp hchat
  exact ⟨line, hline, rfl⟩

/-! ## Follow -/

section Follow

variable {follow : FollowParams Agent Chat}

omit [DecidableEq Chat] in
/-- The lines of an entity with a number are the row of its key. -/
theorem ensures_listLines (h : Numbered entity.key) (hmine : mine (lineKey follow.humanAgentId follow.delegateAgentId entity)) :
    Ensures ValidKey mine base ws (listLines follow entity) fun lines ws' => ws' = ws ∧
      lines = (((applyWrites base ws).lookup (lineKey follow.humanAgentId follow.delegateAgentId entity)).map
        fun line => ⟨line.chatId, line.boundVia, entity.key⟩).toList := by
  refine Ensures.mono (Ensures.select _) ?_
  rintro lines ws' ⟨rfl, t, ht, rfl⟩
  refine ⟨rfl, ?_⟩
  have hvalid : ValidKey (lineKey follow.humanAgentId follow.delegateAgentId entity) := Or.inr h
  have hrows := filter_pair hvalid ht.valid fun _ => true
  simp only [Bool.and_true] at hrows
  rw [hrows, ← ht.same _ hmine]
  cases t.lookup (lineKey follow.humanAgentId follow.delegateAgentId entity) with
  | none => rfl
  | some line => rfl

/-- The creation of a line where there is none. -/
theorem ensures_createFollowLine (h : Numbered entity.key) (htype : entity.type ≠ .commit)
    (hmine : mine (lineKey follow.humanAgentId follow.delegateAgentId entity))
    (hnone : (applyWrites base ws).lookup (lineKey follow.humanAgentId follow.delegateAgentId entity) = none)
    {storage : ScmFollowLineStorage Agent Chat (GithubFollowLine Chat)} (hcreate : storage.createLine = createLine follow entity) :
    Ensures ValidKey mine base ws (createFollowLine follow.chatId false storage) fun result ws' =>
      Followed base (applyWrites base ws') (lineKey follow.humanAgentId follow.delegateAgentId entity) follow.chatId result := by
  unfold createFollowLine
  rw [hcreate]
  have hcreated : Ensures ValidKey mine base ws (createLine follow entity) fun created ws' => created.2 = true ∧
      LineAt (applyWrites base ws') (lineKey follow.humanAgentId follow.delegateAgentId entity) follow.chatId := by
    unfold createLine
    refine Ensures.bind (ensures_insertMappingIfAbsent h htype hmine) ?_
    rintro inserted ws' ⟨line, hline, hchat, hfresh⟩
    obtain ⟨hinserted, hchatId⟩ := hfresh hnone
    refine Ensures.bind (ensures_listLines h hmine) ?_
    rintro lines ws'' ⟨rfl, rfl⟩
    split
    · exact Ensures.done ⟨hinserted, line, hline, hchat.trans hchatId⟩
    · exact Ensures.throws
  refine Ensures.bind hcreated ?_
  rintro ⟨record, inserted⟩ ws' ⟨rfl, hline⟩
  exact Ensures.done hline

/-- The follow of an entity with a number. -/
theorem ensures_declareEntityFollow (h : Numbered entity.key) (htype : entity.type ≠ .commit)
    (hmine : mine (lineKey follow.humanAgentId follow.delegateAgentId entity)) :
    Ensures ValidKey mine base [] (declareEntityFollow follow entity) fun result ws' =>
      Followed base (applyWrites base ws') (lineKey follow.humanAgentId follow.delegateAgentId entity) follow.chatId result := by
  unfold declareEntityFollow
  split
  · exact Ensures.throws
  · unfold executeScmFollowLine
    refine Ensures.bind (ensures_listLines h hmine) ?_
    rintro lines ws' ⟨rfl, rfl⟩
    cases hrow : (applyWrites base []).lookup (lineKey follow.humanAgentId follow.delegateAgentId entity) with
    | none => exact ensures_createFollowLine h htype hmine hrow rfl
    | some line =>
      simp only [Option.map_some, Option.toList_some, List.findIdx?_cons, List.findIdx?_nil]
      split
      · next i hindex =>
        split at hindex
        · next hsame =>
          obtain rfl := Option.some.inj hindex
          simp only [List.getElem?_cons_zero, List.eraseIdx_cons_zero, removeLines]
          exact Ensures.done ⟨line, hrow, of_decide_eq_true hsame⟩
        · cases hindex
      · split
        · exact Ensures.done fun _ => rfl
        · simp only [removeLines, if_true, Program.pure_eq, Program.done_bind]
          refine Ensures.bind (Ensures.mutate _ _) ?_
          rintro moved ws' ⟨t, ht, rfl, rfl⟩
          have hthere : t.lookup (lineKey follow.humanAgentId follow.delegateAgentId entity) = some line :=
            (ht.same _ hmine).trans hrow
          simp only [lineKey] at hthere
          simp only [hthere, Option.isSome_some, if_true]
          exact Ensures.done ⟨_, lookup_write base [] _ _, rfl⟩

end Follow

/-! ## Every program writes under its lock -/

section Confinement

variable {folding : LowerCase} {lock : String}

/-- A program that writes only valid keys which fold to its lock. -/
abbrev Under {α : Type} (folding : LowerCase) (lock : String) (good : α → Prop) (p : LineProgram Agent Chat α) : Prop :=
  Confined ValidKey (fun k => folding.lower k.entityKey = lock) good p

/-- An entity with a valid key that folds to the lock. -/
structure Locked (folding : LowerCase) (lock : String) (entity : GithubEntity) : Prop where
  valid : entity.type = .commit ∨ Numbered entity.key
  lock : folding.lower entity.key = lock

omit [DecidableEq Chat] in
theorem under_lookupMapping (human delegate : Agent) (entity : GithubEntity) :
    Under folding lock (fun _ => True) (lookupMapping human delegate entity : LineProgram Agent Chat _) :=
  Confined.select fun _ _ => trivial

omit [DecidableEq Chat] in
/-- The insertion writes the key of its entity. -/
theorem under_insertOrReread (h : Locked folding lock entity) (insert : InsertMapping Agent Chat) :
    Under folding lock (fun _ => True) (insertOrReread insert entity) := by
  unfold insertOrReread
  have hinsert : Under folding lock (fun _ => True) (insertMapping insert entity) := by
    refine Confined.mutate fun t _ => ⟨fun w hw => ?_, trivial⟩
    split at hw
    · exact absurd hw List.not_mem_nil
    · rw [List.mem_singleton.mp hw]
      exact ⟨h.valid, h.lock⟩
  refine Confined.bind hinsert fun fresh _ => ?_
  split
  · trivial
  · refine Confined.bind (under_lookupMapping _ _ _) fun winner _ => ?_
    cases winner with
    | none => trivial
    | some winner => trivial

omit [DecidableEq Chat] in
/-- The conversion of historical rows writes the key of its commit. -/
theorem under_reactivateCommit (h : Locked folding lock entity) (hcommit : entity.type = .commit)
    (insert : InsertMapping Agent Chat) : Under folding lock (fun _ => True) (reactivateCommit insert entity) := by
  refine Confined.mutate fun t ht => ⟨fun w hw => ?_, trivial⟩
  obtain ⟨e, he, rfl⟩ := List.mem_map.mp hw
  obtain ⟨he, hp⟩ := List.mem_filter.mp he
  obtain ⟨_, _, htype, hmem, _⟩ := of_decide_eq_true hp
  have hkey := eq_of_mem_candidates h.valid (Or.inl hcommit) hmem
  exact ⟨Or.inl htype, (congrArg folding.lower hkey).trans h.lock⟩

omit [DecidableEq Chat] in
/-- The insertion when there is no row. -/
theorem under_insertMappingIfAbsent {insert : InsertMapping Agent Chat} (h : Locked folding lock insert.entity) :
    Under folding lock (fun _ => True) (insertMappingIfAbsent insert) := by
  have hvalid : ValidKey (lineKey insert.humanAgentId insert.delegateAgentId insert.entity) := h.valid
  unfold insertMappingIfAbsent
  rw [normalize_of_valid hvalid]
  refine Confined.bind (under_lookupMapping _ _ _) fun found _ => ?_
  cases found with
  | some existing => trivial
  | none =>
    dsimp only
    split
    · next hcommit =>
      refine Confined.bind (under_reactivateCommit h hcommit.1 insert) fun reactivated _ => ?_
      split
      · trivial
      · exact under_insertOrReread h insert
    · exact under_insertOrReread h insert

omit [DecidableEq Chat] in
/-- A chat that is bound and returned. -/
theorem under_bound (h : Locked folding lock entity) (params : ResolveParams Agent Chat) (chatId : Chat) (boundVia : BoundVia)
    (created : InsertedMapping Chat → Bool) :
    Under folding lock (fun _ => True) (do
      let inserted ← bindLine params entity chatId boundVia
      return some (⟨inserted.chatId, created inserted, some inserted.boundVia⟩ : Placement Chat)) :=
  Confined.bind (under_insertMappingIfAbsent h) fun _ _ => trivial

omit [DecidableEq Chat] in
theorem under_lookupRelated (params : ResolveParams Agent Chat) (related : List GithubEntity) :
    Under folding lock (fun _ => True) (lookupRelated params related) := by
  induction related with
  | nil => trivial
  | cons ref rest ih =>
    refine Confined.bind (under_lookupMapping _ _ _) fun linked _ => ?_
    cases linked with
    | some linked => trivial
    | none => exact ih

theorem under_placeFresh (h : Locked folding lock entity) (params : ResolveParams Agent Chat) :
    Under folding lock (fun _ => True) (placeFresh params entity) := by
  unfold placeFresh
  split
  · trivial
  · split
    · trivial
    · exact under_bound h params _ .direct fun inserted => decide (inserted.chatId = _)

/-- A target resolution. -/
theorem under_resolveTargetChat (h : Locked folding lock entity) (params : ResolveParams Agent Chat)
    (intent : TargetChatIntent Chat) :
    Under folding lock (fun _ => True) (resolveTargetChatInTransaction params entity intent) := by
  have hvalid : ValidKey (lineKey params.humanAgentId params.delegateAgentId entity) := h.valid
  unfold resolveTargetChatInTransaction
  rw [normalize_of_valid hvalid]
  refine Confined.bind (under_lookupMapping _ _ _) fun found _ => ?_
  cases found with
  | some direct => trivial
  | none =>
    cases intent with
    | reuseMembership chatId => trivial
    | reuseWithLine chatId admits => exact under_bound h params chatId .humanFallback fun _ => false
    | strictNewLine => exact under_placeFresh h params
    | providerTaskTarget =>
      have hreuse : Under folding lock (fun _ => True) (reuseForTask params entity) := by
        unfold reuseForTask
        have hhuman :
            Under folding lock (fun _ => True) (lookupMappingByHuman params.humanAgentId entity : LineProgram Agent Chat _) :=
          Confined.select fun _ _ => trivial
        refine Confined.bind hhuman fun found _ => ?_
        cases found with
        | some chat => exact under_bound h params chat .humanFallback fun _ => false
        | none =>
          refine Confined.bind (under_lookupRelated params _) fun linked _ => ?_
          cases linked with
          | some linked => exact under_bound h params linked.chatId .fixesLink fun _ => false
          | none => trivial
      refine Confined.bind hreuse fun placed _ => ?_
      cases placed with
      | some placed => trivial
      | none => exact under_placeFresh h params

/-- A personnel resolution. -/
theorem under_personnel (h : Locked folding lock entity) (params : ResolveParams Agent Chat) (answers : PersonnelAnswers Chat) :
    Under folding lock (fun _ => True) (resolveGithubPersonnelTargetChat params entity answers) := by
  unfold resolveGithubPersonnelTargetChat
  have hcandidates : Under folding lock (fun _ => True) (candidateChats entity : LineProgram Agent Chat _) :=
    Confined.select fun _ _ => trivial
  refine Confined.bind hcandidates fun candidates _ => ?_
  split
  · trivial
  · refine Confined.bind (under_lookupMapping _ _ _) fun found _ => ?_
    cases found with
    | some direct => trivial
    | none =>
      have hplace :
          Under folding lock (fun _ => True) (placeDecided params entity answers.admission (answers.decision candidates)) := by
        unfold placeDecided
        split
        · trivial
        · exact under_resolveTargetChat h params _
      exact Confined.bind hplace fun _ _ => trivial

omit [DecidableEq Chat] in
/-- The lines of an entity have its key. -/
theorem under_listLines (h : Locked folding lock entity) (follow : FollowParams Agent Chat) :
    Under folding lock (fun lines => ∀ line ∈ lines, line.entityKey = entity.key) (listLines follow entity) := by
  refine Confined.select fun t ht line hline => ?_
  obtain ⟨e, he, rfl⟩ := List.mem_map.mp hline
  rw [List.mem_insertionSort] at he
  obtain ⟨he, hp⟩ := List.mem_filter.mp he
  obtain ⟨_, _, htype, hmem⟩ := of_decide_eq_true hp
  have hvalid : ValidKey (lineKey follow.humanAgentId follow.delegateAgentId entity) := h.valid
  exact key_of_candidate hvalid (ht e.1 (List.mem_keys_of_mem he)) htype hmem

omit [DecidableEq Chat] in
/-- The removal of lines of an entity. -/
theorem under_removeLines (h : Locked folding lock entity) (follow : FollowParams Agent Chat) {lines : List (GithubFollowLine Chat)}
    (hlines : ∀ line ∈ lines, line.entityKey = entity.key) :
    Under folding lock (fun _ => True) (removeLines follow entity lines) := by
  unfold removeLines
  split
  · trivial
  · refine Confined.mutate fun t ht => ⟨fun w hw => ?_, trivial⟩
    obtain ⟨e, he, rfl⟩ := List.mem_map.mp hw
    obtain ⟨he, hp⟩ := List.mem_filter.mp he
    obtain ⟨_, _, _, hmem⟩ := of_decide_eq_true hp
    obtain ⟨line, hline, hkey⟩ := List.mem_map.mp hmem
    exact ⟨ht e.1 (List.mem_keys_of_mem he), by rw [← hkey, hlines line hline, h.lock]⟩

omit [DecidableEq Chat] in
/-- The move of a line of an entity. -/
theorem under_moveLine (h : Locked folding lock entity) (follow : FollowParams Agent Chat) {row : GithubFollowLine Chat}
    (hrow : row.entityKey = entity.key) : Under folding lock (fun _ => True) (moveLine follow entity row) := by
  refine Confined.mutate fun t _ => ⟨fun w hw => ?_, trivial⟩
  split at hw
  · rw [List.mem_singleton.mp hw]
    refine ⟨?_, (congrArg folding.lower hrow).trans h.lock⟩
    rcases h.valid with hcommit | hnumbered
    · exact Or.inl hcommit
    · exact Or.inr (hrow ▸ hnumbered)
  · exact absurd hw List.not_mem_nil

/-- The creation of a line. -/
theorem under_createFollowLine (h : Locked folding lock entity) (follow : FollowParams Agent Chat) (chatId : Chat) (fallback : Bool)
    {storage : ScmFollowLineStorage Agent Chat (GithubFollowLine Chat)} (hcreate : storage.createLine = createLine follow entity) :
    Under folding lock (fun _ => True) (createFollowLine chatId fallback storage) := by
  unfold createFollowLine
  rw [hcreate]
  have hcreated : Under folding lock (fun _ => True) (createLine follow entity) := by
    unfold createLine
    refine Confined.bind (under_insertMappingIfAbsent h) fun inserted _ => ?_
    refine Confined.bind (under_listLines h follow) fun lines _ => ?_
    split
    · trivial
    · trivial
  refine Confined.bind hcreated fun created _ => ?_
  dsimp only
  split
  · trivial
  · split
    · trivial
    · trivial

/-- A follow. -/
theorem under_declareEntityFollow (h : Locked folding lock entity) (follow : FollowParams Agent Chat) :
    Under folding lock (fun _ => True) (declareEntityFollow follow entity) := by
  unfold declareEntityFollow
  split
  · trivial
  · unfold executeScmFollowLine
    refine Confined.bind (under_listLines h follow) fun lines hlines => ?_
    split
    · split
      · trivial
      · refine Confined.bind (under_removeLines h follow fun line hline => hlines line (List.mem_of_mem_eraseIdx hline))
          fun _ _ => trivial
    · cases lines with
      | nil => exact under_createFollowLine h follow _ false rfl
      | cons elsewhere others =>
        dsimp only
        split
        · trivial
        · refine Confined.bind (under_removeLines h follow fun line hline => hlines line (List.mem_cons_of_mem _ hline)) fun _ _ => ?_
          refine Confined.bind (under_moveLine h follow (hlines elsewhere List.mem_cons_self)) fun moved _ => ?_
          cases moved with
          | some moved => trivial
          | none => exact under_createFollowLine h follow _ true rfl

omit [DecidableEq Agent] in
/-- An unfollow deletes rows whose keys fold to its lock. -/
theorem under_removeEntityFollow (chatId : Chat) (ref : EntityReference) :
    Under folding (folding.lower (ref.repo ++ "#" ++ toString ref.number)) (fun _ => True)
      (removeEntityFollow folding chatId ref : LineProgram Agent Chat Nat) := by
  refine Confined.mutate fun t ht => ⟨fun w hw => ?_, trivial⟩
  obtain ⟨e, he, rfl⟩ := List.mem_map.mp hw
  obtain ⟨he, hp⟩ := List.mem_filter.mp he
  obtain ⟨_, htype, hmem⟩ := of_decide_eq_true hp
  have hvalid := ht e.1 (List.mem_keys_of_mem he)
  refine ⟨hvalid, ?_⟩
  rcases List.mem_cons.mp hmem with hkey | hlegacy
  · exact hkey
  · -- no row has a legacy spelling
    have hnumbered : Numbered e.1.entityKey := by
      refine hvalid.resolve_left fun hcommit => ?_
      rw [hcommit] at htype
      unfold unfollowTypes at htype
      split at htype <;> simp at htype
    split at hlegacy
    · obtain ⟨repo, number, hkey⟩ := hnumbered
      refine absurd ⟨folding.lower repo, number, ?_⟩ (not_numbered_of_legacy (Option.mem_toList.mp hlegacy))
      rw [hkey, folding.numbered]
    · exact absurd hlegacy List.not_mem_nil

/-- Every transaction writes only keys that fold to its lock. -/
theorem under_program (folding : LowerCase) (call : LineCall Agent Chat) :
    Under folding (lockKey folding call) (fun _ => True) (program folding call) := by
  have hlocked : ∀ ref : EntityRef, Locked folding (folding.lower ref.entity.key) ref.entity := fun ref => by
    refine ⟨?_, rfl⟩
    cases ref with
    | numbered ref => exact Or.inr ⟨ref.repo, ref.number, rfl⟩
    | commit repo sha => exact Or.inl rfl
  cases call with
  | existingLine human delegate ref =>
    have hexisting : Under folding (folding.lower ref.entity.key) (fun _ => True)
        (resolveGithubExistingLineChat human delegate ref.entity : LineProgram Agent Chat _) :=
      Confined.bind (under_lookupMapping human delegate ref.entity) fun _ _ => trivial
    exact Confined.bind hexisting fun _ _ => trivial
  | target params ref intent => exact Confined.bind (under_resolveTargetChat (hlocked ref) params intent) fun _ _ => trivial
  | personnel params ref answers => exact Confined.bind (under_personnel (hlocked ref) params answers) fun _ _ => trivial
  | follow params ref => exact Confined.bind (under_declareEntityFollow (hlocked (.numbered ref)) params) fun _ _ => trivial
  | unfollow chatId ref => exact Confined.bind (under_removeEntityFollow chatId ref) fun _ _ => trivial

end Confinement

/-- A commit of a program meets its promise. -/
theorem commitMeets {folding : LowerCase} {e : Commit (LineCall Agent Chat) (LineKey Agent) (Line Chat) (LineOutcome Chat)}
    (h : CommitOk (lockKey folding) (program folding) ValidKey (fun k => folding.lower k.entityKey) e) : CommitMeets e := by
  obtain ⟨_, ws, hexecutes, hafter⟩ := h
  have hnumbered : ∀ ref : NumberedEntity, Numbered ref.entity.key := fun ref => ⟨ref.repo, ref.number, rfl⟩
  have htype : ∀ ref : NumberedEntity, ref.entity.type ≠ .commit := by
    rintro ⟨type, repo, number⟩
    cases type with
    | issue => simp [NumberedEntity.entity, FollowableGithubEntityType.entityType]
    | pullRequest => simp [NumberedEntity.entity, FollowableGithubEntityType.entityType]
    | discussion => simp [NumberedEntity.entity, FollowableGithubEntityType.entityType]
  obtain ⟨call, result, before, after⟩ := e
  obtain rfl : after = applyWrites before ws := hafter
  cases call with
  | existingLine human delegate ref =>
    cases ref with
    | commit repo sha => trivial
    | numbered ref =>
      have hpost : Ensures ValidKey (fun k => folding.lower k.entityKey = folding.lower ref.entity.key) before []
          (program folding (.existingLine human delegate (.numbered ref))) fun result ws =>
            CommitMeets ⟨.existingLine human delegate (.numbered ref), result, before, applyWrites before ws⟩ :=
        Ensures.bind (ensures_existingLine (hnumbered ref) (htype ref) (by rfl)) fun found _ hfound =>
          Ensures.done ⟨found, rfl, hfound⟩
      exact hpost result ws hexecutes
  | target params ref intent =>
    cases ref with
    | commit repo sha => trivial
    | numbered ref =>
      have hpost : Ensures ValidKey (fun k => folding.lower k.entityKey = folding.lower ref.entity.key) before []
          (program folding (.target params (.numbered ref) intent)) fun result ws =>
            CommitMeets ⟨.target params (.numbered ref) intent, result, before, applyWrites before ws⟩ :=
        Ensures.bind (ensures_resolveTargetChat (hnumbered ref) (htype ref) (by rfl) intent) fun placed _ hplaced =>
          Ensures.done ⟨placed, rfl, hplaced⟩
      exact hpost result ws hexecutes
  | personnel params ref answers =>
    cases ref with
    | commit repo sha => trivial
    | numbered ref =>
      have hpost : Ensures ValidKey (fun k => folding.lower k.entityKey = folding.lower ref.entity.key) before []
          (program folding (.personnel params (.numbered ref) answers)) fun result ws =>
            CommitMeets ⟨.personnel params (.numbered ref) answers, result, before, applyWrites before ws⟩ :=
        Ensures.bind (ensures_personnel (hnumbered ref) (htype ref) (by rfl) answers) fun placed _ hplaced =>
          Ensures.done ⟨placed, rfl, hplaced⟩
      exact hpost result ws hexecutes
  | follow params ref =>
    have hpost : Ensures ValidKey (fun k => folding.lower k.entityKey = folding.lower ref.entity.key) before []
        (program folding (.follow params ref)) fun result ws =>
          CommitMeets ⟨.follow params ref, result, before, applyWrites before ws⟩ :=
      Ensures.bind (ensures_declareEntityFollow (hnumbered ref) (htype ref) (by rfl)) fun found _ hfound =>
        Ensures.done ⟨found, rfl, hfound⟩
    exact hpost result ws hexecutes
  | unfollow chatId ref => trivial

end EntityLinesAux

open EntityLinesAux

/-! ## The result -/

/-- In every interleaving of the five transactions an attention line has one chat. -/
theorem attention_line_one_chat (folding : LowerCase) :
    AlwaysOneChat (ofPartial fun s : LineSystem Agent Chat => EntityLines.step folding s) := by
  intro ops s h
  have hok : CommittedOk (lockKey folding) (program folding) ValidKey (fun k => folding.lower k.entityKey) s.store :=
    committedOk_of_run (under_program folding) h
  refine ⟨fun k hk k' hk' htype hhuman hdelegate hsame hkey => ?_, fun e he => commitMeets (hok.commits e he)⟩
  have hnumbered := (hok.keys k hk).resolve_left htype
  have hnumbered' := (hok.keys k' hk').resolve_left (hsame ▸ htype)
  rw [canonicalize_numbered hnumbered, canonicalize_numbered hnumbered'] at hkey
  obtain ⟨human, delegate, type, key⟩ := k
  obtain ⟨human', delegate', type', key'⟩ := k'
  simp only at hhuman hdelegate hsame hkey
  rw [hhuman, hdelegate, hsame, hkey]

namespace EntityLinesExample

/-- Keys that are in lower case already. -/
def asIs : LowerCase := ⟨id, fun _ _ => rfl⟩

/-- A follow of a discussion, which moves its line when there is one. -/
def followIn (chat : Nat) : LineCall Nat Nat :=
  .follow ⟨chat, 0, 1, .agentDeclared, .open_, true, true, fun _ => none, 0⟩ ⟨.discussion, "o/r", 7⟩

/-- A follow in one chat, and another one in a second chat. -/
def rebound : List (JobOp (LineCall Nat Nat) Nat) :=
  [.begin 0 (followIn 5), .run 0, .run 0, .run 0, .run 0, .run 0, .begin 1 (followIn 6), .run 1, .run 1, .run 1]

example : (rebound.foldlM (EntityLines.step asIs) (.idle ⟨∅, []⟩)).map (fun s => s.store.rows.entries.map (·.2.chatId)) =
    some [6] := by
  decide

end EntityLinesExample

end FirstTree
