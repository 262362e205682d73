import FirstTree.Lib.AssocList
import FirstTree.Lib.Regex
import FirstTree.Shared.ContextSourceLink

/-!
# Team Skill commands

The registry of the slash commands of Team Skills, and what becomes of a slash command at the front of a message. A command that a
menu of Team Skills marked is either rewritten to the Skill that is installed for it or replaced by a notice. Texts are lists of
characters, and `toLowerCase` is a parameter.
-/

namespace FirstTree

/-- What a slash command of a Team Skill stands for. -/
inductive TeamSkillCommandTarget where
  | ready (effectiveName resourceId : List Char)
  | unavailable (reason : List Char)
  deriving DecidableEq, Repr

/-- The targets by base slug. -/
abbrev TeamSkillCommandRegistry := AList fun _ : List Char => TeamSkillCommandTarget

/-- A Team Skill of the configuration, with the name it is installed under, if any. -/
structure TeamSkillCommandEntry where
  requestedSlug : List Char
  resourceId : List Char
  effectiveName : Option (List Char)
  deriving DecidableEq, Repr

/-- The marker of a command that was chosen from a menu. -/
structure TeamSkillInvocation where
  recipientAgentId : List Char
  resourceId : List Char
  requestedSlug : List Char
  configVersion : Nat
  deriving DecidableEq, Repr

/-- The content of a message: a text, a batch of images with or without a caption, or anything else. -/
inductive CommandContent (Ref : Type) where
  | text (content : List Char)
  | imageBatch (attachments : Ref) (caption : Option (List Char))
  | other (content : Ref)

/-- A message of a session. -/
structure CommandMessage (Ref Rest : Type) where
  content : CommandContent Ref
  rest : Rest

/-- `TeamSkillCommandUnavailableError`. -/
structure TeamSkillCommandUnavailableError where
  message : String
  deriving DecidableEq, Repr

/-- The options of a rewrite for an invocation. -/
structure InvocationOptions where
  allowMentionPrefix : Bool
  currentAgentId : List Char
  registryVersion : Nat

namespace TeamSkillCommand

open Regex ShellCommandIo ContextSourceLink

/-! ## The registry -/

/-- `SAFE_SLUG`. -/
def isSafeSlug (slug : List Char) : Bool :=
  match slug with
  | [] => false
  | c :: cs => (c.isLower || c.isDigit) && cs.all fun c => c.isLower || c.isDigit || c == '-'

/-- The target of an entry alone. -/
def targetOf (entry : TeamSkillCommandEntry) : TeamSkillCommandTarget :=
  match entry.effectiveName with
  | none => .unavailable "no verified installed target".toList
  | some effectiveName => .ready effectiveName entry.resourceId

/-- The registry and the slugs that occurred again. -/
structure RegistryScan where
  registry : TeamSkillCommandRegistry
  conflicts : List (List Char)

/-- One entry of the registry. -/
def addEntry (scan : RegistryScan) (entry : TeamSkillCommandEntry) : RegistryScan :=
  let base := entry.requestedSlug
  if !isSafeSlug base then scan
  else if (scan.registry.lookup base).isSome then { scan with conflicts := scan.conflicts ++ [base] }
  else { scan with registry := scan.registry.insert base (targetOf entry) }

/-- A slug that occurred again is not available. -/
def setConflict (registry : TeamSkillCommandRegistry) (base : List Char) : TeamSkillCommandRegistry :=
  registry.insert base (.unavailable "conflicting effective names".toList)

/-- The registry of a list of entries. -/
def buildTeamSkillCommandRegistry (entries : List TeamSkillCommandEntry) : TeamSkillCommandRegistry :=
  let scan := entries.foldl addEntry { registry := ∅, conflicts := [] }
  scan.conflicts.foldl setConflict scan.registry

/-! ## The position of a command -/

/-- A character of a name. -/
def isNameChar (c : Char) : Bool := c.isAlphanum || c == '_' || c == '-'

/-- `MENTION_TOKEN`. -/
def mentionToken : Regex Char :=
  seqs [char (· == '@'), char Char.isAlphanum, upTo 63 (char isNameChar), notAhead (char fun c => isNameChar c || c == '/')]

/-- `COMMAND_NAME`. -/
def commandName : Regex Char :=
  seqs [group 2 (seqs [char Char.isAlphanum, upTo 119 (char isNameChar)]), ahead (alt (char isSpace) atEnd)]

/-- White space before a bare command. -/
def barePrefix : Regex Char := star (char isSpace)

/-- White space and mentions before a command. -/
def mentionedPrefix : Regex Char := seqs [star (char isSpace), star (seqs [mentionToken, star (char isSpace)])]

/-- `BARE_COMMAND_RE`. -/
def bareCommandRe : Regex Char := seqs [group 1 barePrefix, char (· == '/'), commandName]

/-- `MENTIONED_COMMAND_RE`. -/
def mentionedCommandRe : Regex Char := seqs [group 1 mentionedPrefix, char (· == '/'), commandName]

/-- The pattern of a command under the options. -/
def commandRe (allowMentionPrefix : Bool) : Regex Char := if allowMentionPrefix then mentionedCommandRe else bareCommandRe

/-! ## Rewriting a text -/

/-- The lines of a notice. -/
def joinLines (lines : List (List Char)) : List Char := [' '].intercalate lines

/-- `buildUnavailableNotice`. -/
def buildUnavailableNotice (name reason argsTail : List Char) : List Char :=
  let lines := [
    "[First Tree runtime] The user tried to invoke the configured Team Skill \"".toList ++ name ++
      "\", which is currently unavailable".toList,
    "(".toList ++ reason ++ "). Do NOT invoke any slash command or a same-named local Skill on their behalf.".toList,
    "Briefly explain to the user that the Team Skill \"".toList ++ name ++
      "\" is temporarily unavailable and its command cannot run right now.".toList]
  let args := trim argsTail
  joinLines (if args.isEmpty then lines else lines ++ ["The arguments they typed after the command were: ".toList ++ args])

/-- `rewriteTeamSkillCommand`. -/
def rewriteTeamSkillCommand (toLowerCase : List Char → List Char) (content : List Char) (registry : Option TeamSkillCommandRegistry)
    (allowMentionPrefix : Bool) : Except TeamSkillCommandUnavailableError (List Char) :=
  match (commandRe allowMentionPrefix).exec content with
  | none => .ok content
  | some m =>
    let before := (m.capture 1).getD []
    let name := (m.capture 2).getD []
    match registry with
    | none => .error ⟨"Team Skill command registry is not published yet — refusing to hand /" ++ String.ofList name ++
        " to the provider"⟩
    | some registry =>
      match registry.lookup (toLowerCase name) with
      | none => .ok content
      | some (.unavailable reason) => .ok (before ++ buildUnavailableNotice name reason (content.drop m.consumed.length))
      | some (.ready effectiveName _) => .ok (before ++ '/' :: effectiveName ++ content.drop m.consumed.length)

/-- `TEAM_SKILL_COMMAND_STALE_VERSION_NOTICE`. -/
def staleVersionNotice : List Char :=
  "[First Tree runtime] The user tried to invoke a Team Skill command, but the configuration that command ".toList ++
    "was sent against has been superseded by a newer one, so the command was not run. Do NOT invoke any ".toList ++
    "slash command or a same-named local Skill on their behalf. Briefly explain to the user that the ".toList ++
    "command is out of date and ask them to send it again if they still need it.".toList

/-- `TEAM_SKILL_COMMAND_UNRESOLVED_NOTICE`. -/
def unresolvedNotice : List Char :=
  "[First Tree runtime] The user tried to invoke a Team Skill command, but this agent's skill configuration ".toList ++
    "could not be verified right now. Do NOT invoke any slash command or a same-named local Skill on their ".toList ++
    "behalf. Briefly explain to the user that the Team Skill configuration is temporarily unverifiable and ".toList ++
    "the command cannot run.".toList

/-- A command replaced by a notice, the prefix and the arguments kept. -/
def replaceByNotice (notice : List Char) (allowMentionPrefix : Bool) (text : List Char) : List Char :=
  match (commandRe allowMentionPrefix).exec text with
  | none => text
  | some m =>
    let tail := (text.drop m.consumed.length).dropWhile isSpace
    (m.capture 1).getD [] ++ notice ++ (if tail.isEmpty then [] else ' ' :: tail)

/-! ## Rewriting a message -/

variable {Ref Rest : Type}

/-- The text of a content that may have a command. -/
def textOf : CommandContent Ref → Option (List Char)
  | .text content => some content
  | .imageBatch _ caption => caption
  | .other _ => none

/-- The content with another text. -/
def withText : CommandContent Ref → List Char → CommandContent Ref
  | .text _, t => .text t
  | .imageBatch attachments (some _), t => .imageBatch attachments (some t)
  | content, _ => content

/-- A message with its text rewritten. -/
def rewriteText {ε : Type} (message : CommandMessage Ref Rest) (f : List Char → Except ε (List Char)) :
    Except ε (CommandMessage Ref Rest) :=
  match textOf message.content with
  | none => .ok message
  | some t => (f t).map fun t' => { message with content := withText message.content t' }

/-- `rewriteSessionMessageCommandToNotice`. -/
def rewriteSessionMessageCommandToNotice (message : CommandMessage Ref Rest) (notice : List Char) (allowMentionPrefix : Bool) :
    Except TeamSkillCommandUnavailableError (CommandMessage Ref Rest) :=
  rewriteText message fun t => .ok (replaceByNotice notice allowMentionPrefix t)

/-- `rewriteSessionMessageCommand`. -/
def rewriteSessionMessageCommand (toLowerCase : List Char → List Char) (message : CommandMessage Ref Rest)
    (registry : Option TeamSkillCommandRegistry) (allowMentionPrefix : Bool) :
    Except TeamSkillCommandUnavailableError (CommandMessage Ref Rest) :=
  rewriteText message fun t => rewriteTeamSkillCommand toLowerCase t registry allowMentionPrefix

/-- `strictCommandNameIn`. -/
def strictCommandNameIn (text : List Char) (allowMentionPrefix : Bool) : Option (List Char) :=
  ((commandRe allowMentionPrefix).exec text).bind fun m => m.capture 2

/-- `messageStrictCommandName`. -/
def messageStrictCommandName (content : CommandContent Ref) (allowMentionPrefix : Bool) : Option (List Char) :=
  (textOf content).bind fun t => strictCommandNameIn t allowMentionPrefix

/-- `rewriteSessionMessageCommandForInvocation`. -/
def rewriteSessionMessageCommandForInvocation (toLowerCase : List Char → List Char) (message : CommandMessage Ref Rest)
    (registry : TeamSkillCommandRegistry) (invocation : Option TeamSkillInvocation) (opts : InvocationOptions) :
    Except TeamSkillCommandUnavailableError (Option (CommandMessage Ref Rest)) :=
  match messageStrictCommandName message.content opts.allowMentionPrefix with
  | none => .ok none
  | some name =>
    some <$>
      match invocation with
      | none => rewriteSessionMessageCommandToNotice message unresolvedNotice opts.allowMentionPrefix
      | some invocation =>
        if toLowerCase name ≠ toLowerCase invocation.requestedSlug then
          rewriteSessionMessageCommandToNotice message unresolvedNotice opts.allowMentionPrefix
        else if invocation.recipientAgentId ≠ opts.currentAgentId then
          rewriteSessionMessageCommandToNotice message unresolvedNotice opts.allowMentionPrefix
        else if invocation.configVersion ≠ opts.registryVersion then
          rewriteSessionMessageCommandToNotice message staleVersionNotice opts.allowMentionPrefix
        else
          let removed : TeamSkillCommandRegistry := AList.singleton (toLowerCase invocation.requestedSlug)
            (.unavailable "the Team Skill was removed or renamed after this command was sent".toList)
          match registry.lookup (toLowerCase invocation.requestedSlug) with
          | some (.unavailable _) => rewriteSessionMessageCommand toLowerCase message (some registry) opts.allowMentionPrefix
          | none => rewriteSessionMessageCommand toLowerCase message (some removed) opts.allowMentionPrefix
          | some (.ready _ resourceId) =>
            if resourceId ≠ invocation.resourceId then
              rewriteSessionMessageCommand toLowerCase message (some removed) opts.allowMentionPrefix
            else rewriteSessionMessageCommand toLowerCase message (some registry) opts.allowMentionPrefix

end TeamSkillCommand

end FirstTree
