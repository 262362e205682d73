import Mathlib.Data.List.Induction
import FirstTree.Client.TeamSkillCommand

/-!
# Marked Team Skill commands fail closed

A message with the marker of an invocation loses its slash command unless the command is exactly the one that was marked, for this
agent, at this version of the configuration, and ready: then the name alone is replaced by that of the installed Skill. A notice
stands after the same prefix, and what it starts with is nothing a prefix could hold, so no command begins behind it.
-/

namespace FirstTree

open TeamSkillCommand Regex

namespace TeamSkillCommandAux

/-! ## The prefix of a command -/

/-- A character that may stand before a command. -/
def IsPrefixChar (c : Char) : Prop := ShellCommandIo.isSpace c = true ∨ c = '@' ∨ isNameChar c = true

/-- The pattern of what stands before a command. -/
def prefixRe (allowMentionPrefix : Bool) : Regex Char := if allowMentionPrefix then mentionedPrefix else barePrefix

theorem commandRe_eq (allowMentionPrefix : Bool) :
    commandRe allowMentionPrefix = seqs [group 1 (prefixRe allowMentionPrefix), char (· == '/'), commandName] := by
  cases allowMentionPrefix <;> rfl

/-- White space and mentions have no other characters, and capture nothing. -/
theorem prefixRe_only (allowMentionPrefix : Bool) : (prefixRe allowMentionPrefix).Only IsPrefixChar fun _ => False := by
  have hspace : ∀ c, ShellCommandIo.isSpace c = true → IsPrefixChar c := fun c hc => .inl hc
  have hat : ∀ c, (c == '@') = true → IsPrefixChar c := fun c hc => .inr (.inl (eq_of_beq hc))
  have hname : ∀ c, isNameChar c = true → IsPrefixChar c := fun c hc => .inr (.inr hc)
  have halnum : ∀ c, Char.isAlphanum c = true → IsPrefixChar c := fun c hc => hname c (by simp [isNameChar, hc])
  cases allowMentionPrefix with
  | false => exact hspace
  | true => exact ⟨hspace, ⟨⟨hat, halnum, hname, trivial, trivial⟩, hspace, trivial⟩, trivial⟩

/-- The characters of a name capture nothing. -/
theorem nameRe_only : (seqs [char Char.isAlphanum, upTo 119 (char isNameChar)]).Only (fun _ => True) fun _ => False :=
  ⟨fun _ _ => trivial, fun _ _ => trivial, trivial⟩

/-- A text that has a command at its front. -/
structure CommandAt (text before name tail : List Char) (m : Match Char) : Prop where
  parts : text = before ++ '/' :: (name ++ tail)
  consumed : m.consumed = before ++ '/' :: name
  capturesPrefix : m.capture 1 = some before
  capturesName : m.capture 2 = some name
  chars : ∀ c ∈ before, IsPrefixChar c

/-- What the pattern of a command finds. -/
theorem commandAt_of_mem {allowMentionPrefix : Bool} {text : List Char} {m : Match Char}
    (h : m ∈ (commandRe allowMentionPrefix).run text) : ∃ before name tail, CommandAt text before name tail m := by
  have htext := consumed_append_rest h
  rw [commandRe_eq] at h
  obtain ⟨m₁, h₁, m₂, h₂, rfl⟩ := mem_run_seq.1 h
  obtain ⟨before, hbefore, rfl⟩ := mem_run_group.1 h₁
  have hnone : before.captures = [] :=
    List.eq_nil_iff_forall_not_mem.2 fun e he => captures_only (prefixRe_only allowMentionPrefix) hbefore e he
  obtain ⟨slash, hslash, m₃, h₃, rfl⟩ := mem_run_seq.1 h₂
  obtain ⟨c, rest, _, hc, rfl⟩ := mem_run_char.1 hslash
  obtain rfl := eq_of_beq hc
  obtain ⟨m₄, h₄, m₅, h₅, rfl⟩ := mem_run_seq.1 h₃
  obtain rfl := List.mem_singleton.1 h₅
  obtain ⟨m₆, h₆, m₇, h₇, rfl⟩ := mem_run_seq.1 h₄
  obtain ⟨name, hname, rfl⟩ := mem_run_group.1 h₆
  obtain ⟨m₈, h₈, m₉, h₉, rfl⟩ := mem_run_seq.1 h₇
  obtain rfl := List.mem_singleton.1 h₉
  obtain rfl := eq_nothing_of_mem_ahead h₈
  have hnameNone : name.captures = [] :=
    List.eq_nil_iff_forall_not_mem.2 fun e he => captures_only nameRe_only hname e he
  refine ⟨before.consumed, name.consumed, name.rest, ?_, ?_, ?_, ?_, consumed_only (prefixRe_only allowMentionPrefix) hbefore⟩
  · simpa [Match.next, Match.nothing] using htext.symm
  · simp [Match.next, Match.nothing]
  · simp [Match.capture, Match.next, Match.nothing, hnone]
  · simp [Match.capture, Match.next, Match.nothing, hnone, hnameNone]

/-! ## What stands behind a prefix -/

/-- Two texts that agree split in one way where the first part has a property that the next character has not. -/
theorem append_cons_inj {P : Char → Prop} {a b r r' : List Char} {c c' : Char} (ha : ∀ d ∈ a, P d) (hb : ∀ d ∈ b, P d) (hc : ¬ P c)
    (hc' : ¬ P c') (h : a ++ c :: r = b ++ c' :: r') : a = b ∧ c = c' ∧ r = r' := by
  induction a generalizing b with
  | nil =>
    cases b with
    | nil =>
      obtain ⟨rfl, rfl⟩ := List.cons.inj h
      exact ⟨rfl, rfl, rfl⟩
    | cons d b =>
      obtain ⟨rfl, _⟩ := List.cons.inj h
      exact absurd (hb c List.mem_cons_self) hc
  | cons d a ih =>
    cases b with
    | nil =>
      obtain ⟨rfl, _⟩ := List.cons.inj h
      exact absurd (ha d List.mem_cons_self) hc'
    | cons d' b =>
      obtain ⟨rfl, hrest⟩ := List.cons.inj h
      have htails := ih (fun e he => ha e (List.mem_cons_of_mem _ he)) (fun e he => hb e (List.mem_cons_of_mem _ he)) hrest
      exact ⟨by rw [htails.1], htails.2⟩

theorem slash_not_prefixChar : ¬ IsPrefixChar '/' := by
  rintro (h | h | h) <;> exact absurd h (by decide)

theorem bracket_not_prefixChar : ¬ IsPrefixChar '[' := by
  rintro (h | h | h) <;> exact absurd h (by decide)

/-- A bracket behind a prefix is no command. -/
theorem exec_eq_none_of_bracket {allowMentionPrefix : Bool} {before rest : List Char} (h : ∀ c ∈ before, IsPrefixChar c) :
    (commandRe allowMentionPrefix).exec (before ++ '[' :: rest) = none := by
  refine exec_eq_none_iff.2 fun m hm => ?_
  obtain ⟨before', name, tail, hat⟩ := commandAt_of_mem hm
  have hsplit := append_cons_inj h hat.chars bracket_not_prefixChar slash_not_prefixChar hat.parts
  exact absurd hsplit.2.1 (by decide)

/-- What the text of a command is cut into. -/
theorem drop_consumed {text before name tail : List Char} {m : Match Char} (h : CommandAt text before name tail m) :
    text.drop m.consumed.length = tail := by
  rw [h.parts, h.consumed]
  have hlist : before ++ '/' :: (name ++ tail) = (before ++ '/' :: name) ++ tail := by simp
  rw [hlist, List.drop_left]

/-! ## Notices -/

theorem unresolvedNotice_eq : ∃ rest, unresolvedNotice = '[' :: rest := ⟨_, rfl⟩

theorem staleVersionNotice_eq : ∃ rest, staleVersionNotice = '[' :: rest := ⟨_, rfl⟩

theorem buildUnavailableNotice_eq (name reason argsTail : List Char) :
    ∃ rest, buildUnavailableNotice name reason argsTail = '[' :: rest := by
  unfold buildUnavailableNotice
  dsimp only
  split <;> exact ⟨_, rfl⟩

end TeamSkillCommandAux

/-- What a rewrite for an invocation leaves of a text with a command: no command, or the marked command under its installed name. -/
inductive ResolvedCommand (toLowerCase : List Char → List Char) (registry : TeamSkillCommandRegistry)
    (invocation : Option TeamSkillInvocation) (opts : InvocationOptions) (text text' : List Char) : Prop where
  | inert (before name tail notice : List Char) (parts : text = before ++ '/' :: (name ++ tail)) (replaced : text' = before ++ notice)
      (none : (commandRe opts.allowMentionPrefix).exec text' = none)
  | renamed (before name tail effectiveName : List Char) (marker : TeamSkillInvocation) (marked : invocation = some marker)
      (parts : text = before ++ '/' :: (name ++ tail)) (found : strictCommandNameIn text opts.allowMentionPrefix = some name)
      (replaced : text' = before ++ '/' :: (effectiveName ++ tail))
      (slug : toLowerCase name = toLowerCase marker.requestedSlug)
      (row : registry.lookup (toLowerCase marker.requestedSlug) = some (.ready effectiveName marker.resourceId))
      (recipient : marker.recipientAgentId = opts.currentAgentId) (version : marker.configVersion = opts.registryVersion)

namespace TeamSkillCommandAux

variable {Ref Rest : Type} {toLowerCase : List Char → List Char} {registry : TeamSkillCommandRegistry}
  {invocation : Option TeamSkillInvocation} {opts : InvocationOptions} {text before name tail : List Char} {m : Match Char}

/-- A notice leaves no command. -/
theorem resolved_notice (hexec : (commandRe opts.allowMentionPrefix).exec text = some m) (hat : CommandAt text before name tail m)
    {notice : List Char} (hnotice : ∃ rest, notice = '[' :: rest) :
    ResolvedCommand toLowerCase registry invocation opts text (replaceByNotice notice opts.allowMentionPrefix text) := by
  obtain ⟨rest, rfl⟩ := hnotice
  simp only [replaceByNotice, hexec, hat.capturesPrefix, Option.getD_some]
  refine .inert before name tail _ hat.parts (by rw [List.append_assoc]) ?_
  rw [List.append_assoc, List.cons_append]
  exact exec_eq_none_of_bracket hat.chars

/-- The notice of a Skill that is not available leaves no command. -/
theorem resolved_unavailable (hexec : (commandRe opts.allowMentionPrefix).exec text = some m)
    (hat : CommandAt text before name tail m) {reason : List Char} {used : TeamSkillCommandRegistry}
    (hlookup : used.lookup (toLowerCase name) = some (.unavailable reason)) :
    ∃ text', rewriteTeamSkillCommand toLowerCase text (some used) opts.allowMentionPrefix = .ok text' ∧
      ResolvedCommand toLowerCase registry invocation opts text text' := by
  obtain ⟨rest, hnotice⟩ := buildUnavailableNotice_eq name reason (text.drop m.consumed.length)
  refine ⟨before ++ buildUnavailableNotice name reason (text.drop m.consumed.length), ?_,
    .inert before name tail _ hat.parts rfl ?_⟩
  · have hname : (m.capture 2).getD [] = name := by rw [hat.capturesName, Option.getD_some]
    rw [← hname] at hlookup
    simp only [rewriteTeamSkillCommand, hexec, hat.capturesPrefix, Option.getD_some, hlookup, hname]
  · rw [hnotice]
    exact exec_eq_none_of_bracket hat.chars

/-- The command of the marker keeps its prefix and its arguments under the installed name. -/
theorem resolved_renamed (hexec : (commandRe opts.allowMentionPrefix).exec text = some m) (hat : CommandAt text before name tail m)
    {marker : TeamSkillInvocation} {effectiveName : List Char} (hslug : toLowerCase name = toLowerCase marker.requestedSlug)
    (hrow : registry.lookup (toLowerCase marker.requestedSlug) = some (.ready effectiveName marker.resourceId))
    (hrecipient : marker.recipientAgentId = opts.currentAgentId) (hversion : marker.configVersion = opts.registryVersion) :
    ∃ text', rewriteTeamSkillCommand toLowerCase text (some registry) opts.allowMentionPrefix = .ok text' ∧
      ResolvedCommand toLowerCase registry (some marker) opts text text' := by
  have hfound : strictCommandNameIn text opts.allowMentionPrefix = some name := by
    rw [strictCommandNameIn, hexec, Option.bind_some, hat.capturesName]
  refine ⟨before ++ '/' :: (effectiveName ++ tail), ?_,
    .renamed before name tail effectiveName marker rfl hat.parts hfound rfl hslug hrow hrecipient hversion⟩
  have hname : (m.capture 2).getD [] = name := by rw [hat.capturesName, Option.getD_some]
  rw [← hslug, ← hname] at hrow
  simp only [rewriteTeamSkillCommand, hexec, hat.capturesPrefix, Option.getD_some, hrow, drop_consumed hat, List.append_assoc,
    List.cons_append]

/-! ## Messages -/

/-- The message with another text. -/
def messageWith (message : CommandMessage Ref Rest) (text : List Char) : CommandMessage Ref Rest :=
  { message with content := withText message.content text }

/-- A message whose text is rewritten. -/
theorem rewriteText_ok {ε : Type} {message : CommandMessage Ref Rest} {f : List Char → Except ε (List Char)} {text text' : List Char}
    (htext : textOf message.content = some text) (hf : f text = .ok text') :
    rewriteText message f = .ok (messageWith message text') := by
  simp only [rewriteText, htext, hf, Except.map, messageWith]

/-- A message with a command is resolved. -/
theorem invocation_resolved {message : CommandMessage Ref Rest} (htext : textOf message.content = some text)
    (hexec : (commandRe opts.allowMentionPrefix).exec text = some m) :
    ∃ text', rewriteSessionMessageCommandForInvocation toLowerCase message registry invocation opts =
      .ok (some (messageWith message text')) ∧ ResolvedCommand toLowerCase registry invocation opts text text' := by
  obtain ⟨before, name, tail, hat⟩ := commandAt_of_mem (mem_run_of_exec hexec)
  have hname : messageStrictCommandName message.content opts.allowMentionPrefix = some name := by
    rw [messageStrictCommandName, htext, Option.bind_some, strictCommandNameIn, hexec, Option.bind_some, hat.capturesName]
  have hnotice : ∀ notice, (∃ rest, notice = '[' :: rest) → ∃ text',
      rewriteSessionMessageCommandToNotice message notice opts.allowMentionPrefix = .ok (messageWith message text') ∧
        ResolvedCommand toLowerCase registry invocation opts text text' :=
    fun notice hnotice => ⟨_, rewriteText_ok htext rfl, resolved_notice hexec hat hnotice⟩
  have hunavailable : ∀ {used : TeamSkillCommandRegistry} {reason}, used.lookup (toLowerCase name) = some (.unavailable reason) →
      ∃ text', rewriteSessionMessageCommand toLowerCase message (some used) opts.allowMentionPrefix =
        .ok (messageWith message text') ∧ ResolvedCommand toLowerCase registry invocation opts text text' := by
    intro used reason hlookup
    obtain ⟨text', hrewrite, hresolved⟩ : ∃ text', rewriteTeamSkillCommand toLowerCase text (some used) opts.allowMentionPrefix =
        .ok text' ∧ ResolvedCommand toLowerCase registry invocation opts text text' := resolved_unavailable hexec hat hlookup
    exact ⟨text', rewriteText_ok htext hrewrite, hresolved⟩
  -- Every branch answers with a message whose text is resolved.
  have hsome : ∀ {x : Except TeamSkillCommandUnavailableError (CommandMessage Ref Rest)},
      (∃ text', x = .ok (messageWith message text') ∧ ResolvedCommand toLowerCase registry invocation opts text text') →
      ∃ text', some <$> x = .ok (some (messageWith message text')) ∧
        ResolvedCommand toLowerCase registry invocation opts text text' := by
    rintro x ⟨text', rfl, hresolved⟩
    exact ⟨text', rfl, hresolved⟩
  simp only [rewriteSessionMessageCommandForInvocation, hname]
  refine hsome ?_
  cases invocation with
  | none => exact hnotice _ unresolvedNotice_eq
  | some marker =>
    dsimp only
    split
    · exact hnotice _ unresolvedNotice_eq
    · rename_i hslug
      rw [ne_eq, not_not] at hslug
      split
      · exact hnotice _ unresolvedNotice_eq
      · rename_i hrecipient
        split
        · exact hnotice _ staleVersionNotice_eq
        · rename_i hversion
          rw [ne_eq, not_not] at hrecipient hversion
          have hremoved : ∀ reason, (AList.singleton (toLowerCase marker.requestedSlug) (.unavailable reason) :
              TeamSkillCommandRegistry).lookup (toLowerCase name) = some (.unavailable reason) := by
            intro reason
            rw [hslug]
            exact List.dlookup_cons_eq [] _ _
          split
          · rename_i hrow
            exact hunavailable (hslug ▸ hrow)
          · exact hunavailable (hremoved _)
          · rename_i effectiveName resourceId hrow
            split
            · exact hunavailable (hremoved _)
            · rename_i hresource
              rw [ne_eq, not_not] at hresource
              subst hresource
              obtain ⟨text', hrewrite, hresolved⟩ := resolved_renamed hexec hat hslug hrow hrecipient hversion
              exact ⟨text', rewriteText_ok htext hrewrite, hresolved⟩

/-- A content without a command. -/
def NoCommand (allowMentionPrefix : Bool) (content : CommandContent Ref) : Prop :=
  ∀ text, textOf content = some text → (commandRe allowMentionPrefix).exec text = none

/-- A content without a command has no command name. -/
theorem messageStrictCommandName_eq_none_iff {content : CommandContent Ref} {allowMentionPrefix : Bool} :
    messageStrictCommandName content allowMentionPrefix = none ↔ NoCommand allowMentionPrefix content := by
  constructor
  · intro h text htext
    rw [messageStrictCommandName, htext, Option.bind_some, strictCommandNameIn, Option.bind_eq_none_iff] at h
    cases hexec : (commandRe allowMentionPrefix).exec text with
    | none => rfl
    | some m =>
      obtain ⟨before, name, tail, hat⟩ := commandAt_of_mem (mem_run_of_exec hexec)
      have hnone := h m hexec
      rw [hat.capturesName] at hnone
      exact absurd hnone (by simp)
  · intro h
    rw [messageStrictCommandName, Option.bind_eq_none_iff]
    intro text htext
    rw [strictCommandNameIn, h text htext, Option.bind_none]

/-! ## The registry -/

/-- The entries of a slug. -/
def entriesOf (slug : List Char) (entries : List TeamSkillCommandEntry) : List TeamSkillCommandEntry :=
  entries.filter fun e => e.requestedSlug == slug

/-- What the pass over the entries knows of a slug. -/
structure Scanned (entries : List TeamSkillCommandEntry) (scan : RegistryScan) (slug : List Char) : Prop where
  registry : scan.registry.lookup slug = if isSafeSlug slug then (entriesOf slug entries).head?.map targetOf else none
  conflicts : slug ∈ scan.conflicts ↔ isSafeSlug slug = true ∧ 2 ≤ (entriesOf slug entries).length

/-- An entry of another slug changes nothing for a slug. -/
theorem Scanned.other {entries : List TeamSkillCommandEntry} {scan : RegistryScan} {slug : List Char} (h : Scanned entries scan slug)
    {e : TeamSkillCommandEntry} (hne : e.requestedSlug ≠ slug) : Scanned (entries ++ [e]) (addEntry scan e) slug := by
  have hentries : entriesOf slug (entries ++ [e]) = entriesOf slug entries := by simp [entriesOf, hne]
  unfold addEntry
  dsimp only
  split
  · exact ⟨hentries ▸ h.registry, hentries ▸ h.conflicts⟩
  · split
    · refine ⟨hentries ▸ h.registry, ?_⟩
      rw [hentries, List.mem_append, h.conflicts, List.mem_singleton]
      exact or_iff_left (Ne.symm hne)
    · refine ⟨?_, hentries ▸ h.conflicts⟩
      rw [hentries, AList.lookup_insert_ne (Ne.symm hne), h.registry]

/-- An entry of a slug is its target the first time, and a conflict from then on. -/
theorem Scanned.same {entries : List TeamSkillCommandEntry} {scan : RegistryScan} {e : TeamSkillCommandEntry}
    (h : Scanned entries scan e.requestedSlug) : Scanned (entries ++ [e]) (addEntry scan e) e.requestedSlug := by
  have hentries : entriesOf e.requestedSlug (entries ++ [e]) = entriesOf e.requestedSlug entries ++ [e] := by simp [entriesOf]
  obtain ⟨hregistry, hconflicts⟩ := h
  unfold addEntry
  dsimp only
  cases hsafe : isSafeSlug e.requestedSlug with
  | false =>
    rw [hsafe] at hregistry hconflicts
    exact ⟨by simpa [hsafe] using hregistry, by simpa [hsafe] using hconflicts⟩
  | true =>
    rw [hsafe, if_pos rfl] at hregistry
    rw [hsafe] at hconflicts
    rw [Bool.not_true, if_neg Bool.false_ne_true]
    cases hlist : entriesOf e.requestedSlug entries with
    | nil =>
      rw [hlist] at hregistry hconflicts
      rw [hregistry, List.head?_nil, Option.map_none, Option.isSome_none, if_neg Bool.false_ne_true]
      refine ⟨?_, ?_⟩
      · rw [AList.lookup_insert, hsafe, if_pos rfl, hentries, hlist]
        rfl
      · rw [hentries, hlist]
        simpa using hconflicts
    | cons first rest =>
      rw [hlist] at hregistry hconflicts
      have hsome : (scan.registry.lookup e.requestedSlug).isSome = true := by
        rw [hregistry]
        rfl
      rw [if_pos hsome]
      refine ⟨?_, ?_⟩
      · rw [hregistry, hsafe, if_pos rfl, hentries, hlist]
        rfl
      · rw [hentries, hlist]
        simp [hsafe]

/-- The pass over the entries. -/
theorem scanned (entries : List TeamSkillCommandEntry) (slug : List Char) :
    Scanned entries (entries.foldl addEntry { registry := ∅, conflicts := [] }) slug := by
  induction entries using List.reverseRecOn with
  | nil => exact ⟨by simp [entriesOf], by simp [entriesOf]⟩
  | append_singleton entries e ih =>
    rw [List.foldl_append, List.foldl_cons, List.foldl_nil]
    by_cases hslug : e.requestedSlug = slug
    · subst hslug
      exact ih.same
    · exact ih.other hslug

/-- The targets after the conflicts. -/
theorem lookup_foldl_setConflict (conflicts : List (List Char)) (registry : TeamSkillCommandRegistry) (slug : List Char) :
    (conflicts.foldl setConflict registry).lookup slug =
      if slug ∈ conflicts then some (.unavailable "conflicting effective names".toList) else registry.lookup slug := by
  induction conflicts generalizing registry with
  | nil => simp
  | cons base conflicts ih =>
    rw [List.foldl_cons, ih, setConflict, AssocList.lookup_insert_ite]
    by_cases hmem : slug ∈ conflicts
    · rw [if_pos hmem, if_pos (List.mem_cons_of_mem _ hmem)]
    · by_cases hbase : slug = base
      · rw [if_neg hmem, if_pos hbase, if_pos (by rw [hbase]; exact List.mem_cons_self)]
      · rw [if_neg hmem, if_neg hbase, if_neg (by simp [hmem, hbase])]

/-- The target of a slug in the registry: that of its only entry, and none that is ready when it occurs again. -/
theorem lookup_buildTeamSkillCommandRegistry (entries : List TeamSkillCommandEntry) (slug : List Char) :
    (buildTeamSkillCommandRegistry entries).lookup slug =
      if isSafeSlug slug = true ∧ 2 ≤ (entriesOf slug entries).length then some (.unavailable "conflicting effective names".toList)
      else if isSafeSlug slug then (entriesOf slug entries).head?.map targetOf else none := by
  have h := scanned entries slug
  rw [buildTeamSkillCommandRegistry, lookup_foldl_setConflict, h.registry]
  simp only [h.conflicts]

/-- The order of the entries does not matter. -/
theorem lookup_of_perm {entries entries' : List TeamSkillCommandEntry} (h : entries.Perm entries') (slug : List Char) :
    (buildTeamSkillCommandRegistry entries).lookup slug = (buildTeamSkillCommandRegistry entries').lookup slug := by
  have hperm : (entriesOf slug entries).Perm (entriesOf slug entries') := h.filter _
  rw [lookup_buildTeamSkillCommandRegistry, lookup_buildTeamSkillCommandRegistry, hperm.length_eq]
  by_cases htwo : isSafeSlug slug = true ∧ 2 ≤ (entriesOf slug entries').length
  · rw [if_pos htwo, if_pos htwo]
  · rw [if_neg htwo, if_neg htwo]
    cases hsafe : isSafeSlug slug with
    | false => rfl
    | true =>
      -- With one entry at most there is only one order.
      have hshort : (entriesOf slug entries').length ≤ 1 := by
        by_contra hlong
        exact htwo ⟨hsafe, by omega⟩
      have heq : entriesOf slug entries = entriesOf slug entries' := by
        match hlist : entriesOf slug entries' with
        | [] => exact (hlist ▸ hperm).eq_nil
        | [e] => exact List.perm_singleton.1 (hlist ▸ hperm)
        | _ :: _ :: _ => simp [hlist] at hshort
      rw [heq]

end TeamSkillCommandAux

open TeamSkillCommandAux

/-- A message with the marker of an invocation keeps no slash command but the marked one, and the registry does not depend on the
order of the Team Skills. -/
theorem marked_command_fails_closed :
    (∀ {Ref Rest : Type} (toLowerCase : List Char → List Char) (message : CommandMessage Ref Rest)
      (registry : TeamSkillCommandRegistry) (invocation : Option TeamSkillInvocation) (opts : InvocationOptions),
      (rewriteSessionMessageCommandForInvocation toLowerCase message registry invocation opts = .ok none ↔
        NoCommand opts.allowMentionPrefix message.content) ∧
      ∀ text, textOf message.content = some text → (commandRe opts.allowMentionPrefix).exec text ≠ none →
        ∃ text', rewriteSessionMessageCommandForInvocation toLowerCase message registry invocation opts =
          .ok (some (messageWith message text')) ∧ ResolvedCommand toLowerCase registry invocation opts text text') ∧
    (∀ {entries entries' : List TeamSkillCommandEntry}, entries.Perm entries' → ∀ slug,
      (buildTeamSkillCommandRegistry entries).lookup slug = (buildTeamSkillCommandRegistry entries').lookup slug) ∧
    ∀ (entries : List TeamSkillCommandEntry) (slug effectiveName resourceId : List Char),
      2 ≤ (entriesOf slug entries).length →
        (buildTeamSkillCommandRegistry entries).lookup slug ≠ some (.ready effectiveName resourceId) := by
  refine ⟨?_, fun h slug => lookup_of_perm h slug, ?_⟩
  · intro Ref Rest toLowerCase message registry invocation opts
    have hresolved : ∀ text, textOf message.content = some text → (commandRe opts.allowMentionPrefix).exec text ≠ none →
        ∃ text', rewriteSessionMessageCommandForInvocation toLowerCase message registry invocation opts =
          .ok (some (messageWith message text')) ∧ ResolvedCommand toLowerCase registry invocation opts text text' := by
      intro text htext hexec
      obtain ⟨m, hm⟩ := Option.ne_none_iff_exists'.1 hexec
      exact invocation_resolved htext hm
    refine ⟨⟨fun hnone => ?_, fun hnone => ?_⟩, hresolved⟩
    · intro text htext
      by_contra hexec
      obtain ⟨text', hsome, _⟩ := hresolved text htext hexec
      rw [hnone] at hsome
      exact absurd hsome (by simp)
    · have hname := messageStrictCommandName_eq_none_iff.2 hnone
      simp only [rewriteSessionMessageCommandForInvocation, hname]
  · intro entries slug effectiveName resourceId htwo
    rw [lookup_buildTeamSkillCommandRegistry]
    cases hsafe : isSafeSlug slug with
    | false => simp
    | true =>
      rw [if_pos ⟨rfl, htwo⟩]
      simp

example : strictCommandNameIn " @bob /Review now".toList true = some "Review".toList := by decide

end FirstTree
