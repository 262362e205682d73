import Mathlib.Data.List.Basic

/-!
# Shell command classification

Whether a command that an agent ran is one read of explicit paths. A hand-written tokenizer splits the command into words, wrappers of
the form `bash -lc '...'` are unwrapped twice at most, and a loop for each known tool picks the words that are paths. Texts are
lists of characters, and `toLowerCase` is a parameter.
-/

namespace FirstTree

/-- What a path of a tool is taken to be. -/
inductive ShellIoPathKindHint where
  | file
  | directory
  | unknown
  deriving DecidableEq, Repr

/-- A path argument. -/
structure ShellIoPathArg where
  raw : List Char
  pathKindHint : ShellIoPathKindHint
  deriving DecidableEq

/-- Why a command is not a supported read. -/
inductive ShellIoUnsupportedReason where
  | empty
  | unsupported_tool
  | complex_shell
  | write_or_mutation
  | no_explicit_path
  | dynamic_path
  deriving DecidableEq, Repr

/-- The classification of a command. -/
inductive ShellIoClassification where
  | read (commandName : List Char) (pathArgs : List ShellIoPathArg)
  | unsupported (reason : ShellIoUnsupportedReason) (commandName : Option (List Char))
  deriving DecidableEq

/-- A word of a command, and whether the shell would expand it. -/
structure ShellToken where
  value : List Char
  dynamic : Bool
  deriving DecidableEq

/-- The quotation the tokenizer is in. -/
inductive ShellQuote where
  | single
  | double
  deriving DecidableEq, Repr

namespace ShellCommandIo

/-! ## Tables -/

/-- `MUTATING_OR_AMBIGUOUS_TOOLS`. -/
def mutatingOrAmbiguousTools : List (List Char) :=
  ["awk", "bash", "chmod", "chown", "cp", "dd", "echo", "install", "mkdir", "mv", "node", "perl", "printf", "python", "python3", "rm",
    "rmdir", "sed-i", "sh", "tee", "touch", "truncate", "xargs", "zsh"].map String.toList

/-- `SHELL_WRAPPER_BASENAMES`. -/
def shellWrapperBasenames : List (List Char) := ["sh", "bash", "zsh"].map String.toList

/-- `SHELL_WRAPPER_FLAGS`. -/
def shellWrapperFlags : List (List Char) := ["-c", "-lc"].map String.toList

/-- `MAX_WRAPPER_UNWRAPS`. -/
def maxWrapperUnwraps : Nat := 2

/-- `SIMPLE_FILE_READ_TOOLS`. -/
def simpleFileReadTools : List (List Char) := ["cat", "head", "nl", "tail", "wc"].map String.toList

/-- `HEAD_TAIL_VALUE_OPTIONS`. -/
def headTailValueOptions : List (List Char) := ["-c", "--bytes", "-n", "--lines"].map String.toList

/-- `SED_SCRIPT_OPTIONS`. -/
def sedScriptOptions : List (List Char) := ["-e", "--expression", "-f", "--file"].map String.toList

/-- `GREP_PATTERN_OPTIONS`. -/
def grepPatternOptions : List (List Char) := ["-e", "--regexp", "-f", "--file"].map String.toList

/-- `GREP_VALUE_OPTIONS`. -/
def grepValueOptions : List (List Char) :=
  grepPatternOptions ++
    ["-A", "--after-context", "-B", "--before-context", "-C", "--context", "-D", "--devices", "-d", "--directories", "-m",
      "--max-count",
      "--binary-files", "--color", "--colour", "--exclude", "--exclude-dir", "--exclude-from", "--group-separator", "--include",
      "--include-dir", "--label"].map String.toList

/-- `GREP_BOOLEAN_OPTIONS`. -/
def grepBooleanOptions : List (List Char) :=
  ["-a", "--text", "-b", "--byte-offset", "-c", "--count", "-E", "--extended-regexp", "-F", "--fixed-strings", "-G", "--basic-regexp",
    "-H", "--with-filename", "-h", "--no-filename", "-I", "-i", "--ignore-case", "-L", "--files-without-match", "-l",
    "--files-with-matches", "-n", "--line-number", "-o", "--only-matching", "-P", "--perl-regexp", "-q", "--quiet", "--silent", "-R",
    "-r", "--recursive", "--dereference-recursive", "-s", "--no-messages", "-U", "--binary", "-v", "--invert-match", "-w",
    "--word-regexp", "-x", "--line-regexp", "-z", "--null-data"].map String.toList

/-- `RG_VALUE_OPTIONS`. -/
def rgValueOptions : List (List Char) :=
  ["-A", "--after-context", "-B", "--before-context", "-C", "--context", "-e", "--regexp", "-f", "--file", "-g", "--glob", "-m",
    "--max-count", "-t", "--type", "-T", "--type-not"].map String.toList

/-- The options of ripgrep that give the pattern. -/
def rgPatternOptions : List (List Char) := ["-e", "--regexp", "-f", "--file"].map String.toList

/-- `FIND_MUTATING_PRIMARIES`. -/
def findMutatingPrimaries : List (List Char) :=
  ["-delete", "-exec", "-execdir", "-fls", "-fprint", "-fprint0", "-fprintf", "-ok", "-okdir"].map String.toList

/-! ## The tokenizer -/

/-- The white space of JavaScript, `/\s/`. -/
def isSpace (c : Char) : Bool :=
  (9 ≤ c.toNat && c.toNat ≤ 13) || c.toNat = 32 || c.toNat = 0xA0 || c.toNat = 0x1680 || (0x2000 ≤ c.toNat && c.toNat ≤ 0x200A) ||
    c.toNat = 0x2028 || c.toNat = 0x2029 || c.toNat = 0x202F || c.toNat = 0x205F || c.toNat = 0x3000 || c.toNat = 0xFEFF

/-- A character that makes a word dynamic. -/
def isDynamicChar (c : Char) : Bool := c = '$' || c = '\x60'

/-- The characters that end a simple command or redirect it, as the tokenizer lists them. -/
def isComplexChar (c : Char) : Bool :=
  c = '|' || c = ';' || c = '&' || c = '>' || c = '<' || c = '\n' || c = '\r'

/-- The word that a flush adds, when it is not empty. -/
def flushed (value : List Char) (dynamic : Bool) : List ShellToken :=
  if value = [] then [] else [{ value, dynamic }]

/-- The loop of `tokenizeSimpleShell`: the quotation it is in, whether the last character was a backslash, the word read so far and
whether it is dynamic. A backslash takes the next character, whatever it is, and must have one. -/
def tokenizeFrom (quote : Option ShellQuote) (escaped : Bool) (value : List Char) (dynamic : Bool) :
    List Char → Except ShellIoUnsupportedReason (List ShellToken)
  | [] => if quote = none ∧ escaped = false then .ok (flushed value dynamic) else .error .complex_shell
  | c :: rest =>
    if escaped then tokenizeFrom quote false (value ++ [c]) dynamic rest
    else
      match quote with
      | some .single =>
        if c = '\x27' then tokenizeFrom none false value dynamic rest
        else tokenizeFrom (some .single) false (value ++ [c]) dynamic rest
      | some .double =>
        if c = '\x22' then tokenizeFrom none false value dynamic rest
        else if c = '\x5c' then tokenizeFrom (some .double) true value dynamic rest
        else tokenizeFrom (some .double) false (value ++ [c]) (dynamic || isDynamicChar c) rest
      | none =>
        if isSpace c then (tokenizeFrom none false [] (dynamic && value = []) rest).map (flushed value dynamic ++ ·)
        else if c = '\x27' then tokenizeFrom (some .single) false value dynamic rest
        else if c = '\x22' then tokenizeFrom (some .double) false value dynamic rest
        else if c = '#' ∧ value = [] then .error .complex_shell
        else if c = '\x5c' then tokenizeFrom none true value dynamic rest
        else if isComplexChar c then .error .complex_shell
        else tokenizeFrom none false (value ++ [c]) (dynamic || isDynamicChar c) rest

/-- `tokenizeSimpleShell`. -/
def tokenizeSimpleShell (command : List Char) : Except ShellIoUnsupportedReason (List ShellToken) :=
  if command.all isSpace then .error .empty
  else
    match tokenizeFrom none false [] false command with
    | .error reason => .error reason
    | .ok tokens => if tokens = [] then .error .empty else .ok tokens

/-! ## Options and paths -/

/-- `commandBasename`. -/
def commandBasename (toLowerCase : List Char → List Char) (value : List Char) : List Char :=
  let normalized := value.map fun c => if c = '\x5c' then '/' else c
  toLowerCase ((((normalized.splitOn '/').filter (· ≠ [])).getLast?).getD normalized)

/-- `isOptionToken`. -/
def isOptionToken (value : List Char) : Bool :=
  value ≠ ['-'] && value ≠ ['-', '-'] && ['-'].isPrefixOf value

/-- `optionBase`. -/
def optionBase (value : List Char) : List Char :=
  value.takeWhile (· ≠ '=')

/-- `optionConsumesSeparateValue`. -/
def optionConsumesSeparateValue (value : List Char) (options : List (List Char)) : Bool :=
  ! value.contains '=' && options.contains value

/-- `isKnownBooleanOption`: the option, or a dash with letters that are each an option. -/
def isKnownBooleanOption (value : List Char) (options : List (List Char)) : Bool :=
  options.contains value ||
    match value with
    | '-' :: flags => flags ≠ [] && flags.all Char.isAlpha && flags.all fun flag => options.contains ['-', flag]
    | _ => false

/-- `hasDynamicPathSyntax`. -/
def hasDynamicPathSyntax (token : ShellToken) : Bool :=
  token.dynamic || ['~'].isPrefixOf token.value || token.value.any isDynamicChar ||
    token.value.any fun c => c = '*' || c = '?' || c = '[' || c = ']' || c = '\x7b' || c = '\x7d'

/-- `pathArg`. -/
def pathArg (token : ShellToken) (pathKindHint : ShellIoPathKindHint) : Except ShellIoUnsupportedReason ShellIoPathArg :=
  if token.value = [] ∨ hasDynamicPathSyntax token then .error .dynamic_path else .ok { raw := token.value, pathKindHint }

/-- `finishPathArgs`: a dash is no path, and one dynamic path makes the command unsupported. -/
def finishPathArgs (commandName : List Char) (tokens : List ShellToken) (pathKindHint : ShellIoPathKindHint) :
    ShellIoClassification :=
  if tokens = [] then .unsupported .no_explicit_path (some commandName)
  else
    match (tokens.filter (·.value ≠ ['-'])).mapM (pathArg · pathKindHint) with
    | .error reason => .unsupported reason (some commandName)
    | .ok pathArgs =>
      if pathArgs = [] then .unsupported .no_explicit_path (some commandName) else .read commandName pathArgs

/-! ## The tools

Each loop reads the words after the command word. `skip` says that the last option takes the next word as its value. -/

/-- `--`. -/
def doubleDash : List Char := ['-', '-']

/-- The loop of `classifySimpleFileRead`. -/
def simpleFileReadPaths (commandName : List Char) : (afterDoubleDash skip : Bool) → List ShellToken → List ShellToken
  | _, _, [] => []
  | afterDoubleDash, true, _ :: rest => simpleFileReadPaths commandName afterDoubleDash false rest
  | afterDoubleDash, false, token :: rest =>
    if ! afterDoubleDash && token.value = doubleDash then simpleFileReadPaths commandName true false rest
    else if ! afterDoubleDash && (commandName = "head".toList || commandName = "tail".toList) &&
        optionConsumesSeparateValue token.value headTailValueOptions then
      simpleFileReadPaths commandName afterDoubleDash true rest
    else if ! afterDoubleDash && isOptionToken token.value then simpleFileReadPaths commandName afterDoubleDash false rest
    else token :: simpleFileReadPaths commandName afterDoubleDash false rest

/-- `classifySimpleFileRead`. -/
def classifySimpleFileRead (commandName : List Char) (tokens : List ShellToken) : ShellIoClassification :=
  finishPathArgs commandName (simpleFileReadPaths commandName false false tokens.tail) .file

/-- The loop of `classifySed`; none for an edit in place. -/
def sedPaths : (scriptProvided afterDoubleDash skip : Bool) → List ShellToken → Option (List ShellToken)
  | _, _, _, [] => some []
  | scriptProvided, afterDoubleDash, true, _ :: rest => sedPaths scriptProvided afterDoubleDash false rest
  | scriptProvided, afterDoubleDash, false, token :: rest =>
    if ! afterDoubleDash && token.value = doubleDash then sedPaths scriptProvided true false rest
    else if ! afterDoubleDash && (['-', 'i'].isPrefixOf token.value || optionBase token.value = "--in-place".toList) then none
    else if ! afterDoubleDash && isOptionToken token.value then
      if sedScriptOptions.contains (optionBase token.value) then
        sedPaths true afterDoubleDash (optionConsumesSeparateValue token.value sedScriptOptions) rest
      else sedPaths scriptProvided afterDoubleDash false rest
    else if ! scriptProvided then sedPaths true afterDoubleDash false rest
    else (sedPaths scriptProvided afterDoubleDash false rest).map (token :: ·)

/-- `classifySed`. -/
def classifySed (tokens : List ShellToken) : ShellIoClassification :=
  match sedPaths false false false tokens.tail with
  | none => .unsupported .write_or_mutation (some "sed".toList)
  | some paths => finishPathArgs "sed".toList paths .file

/-- The loop of `classifyGrep`; none for an option that is not known. -/
def grepPaths : (patternProvided afterDoubleDash skip : Bool) → List ShellToken → Option (List ShellToken)
  | _, _, _, [] => some []
  | patternProvided, afterDoubleDash, true, _ :: rest => grepPaths patternProvided afterDoubleDash false rest
  | patternProvided, afterDoubleDash, false, token :: rest =>
    if ! afterDoubleDash && token.value = doubleDash then grepPaths patternProvided true false rest
    else if ! afterDoubleDash && isOptionToken token.value then
      if ! grepValueOptions.contains (optionBase token.value) && ! isKnownBooleanOption token.value grepBooleanOptions then none
      else
        grepPaths (patternProvided || grepPatternOptions.contains (optionBase token.value)) afterDoubleDash
          (optionConsumesSeparateValue token.value grepValueOptions) rest
    else if ! patternProvided then grepPaths true afterDoubleDash false rest
    else (grepPaths patternProvided afterDoubleDash false rest).map (token :: ·)

/-- `classifyGrep`. -/
def classifyGrep (tokens : List ShellToken) : ShellIoClassification :=
  match grepPaths false false false tokens.tail with
  | none => .unsupported .unsupported_tool (some "grep".toList)
  | some paths => finishPathArgs "grep".toList paths .unknown

/-- The loop of `classifyRipgrep`: whether files mode was asked for, and the paths. -/
def ripgrepPaths : (filesMode patternProvided afterDoubleDash skip : Bool) → List ShellToken → Bool × List ShellToken
  | filesMode, _, _, _, [] => (filesMode, [])
  | filesMode, patternProvided, afterDoubleDash, true, _ :: rest => ripgrepPaths filesMode patternProvided afterDoubleDash false rest
  | filesMode, patternProvided, afterDoubleDash, false, token :: rest =>
    if ! afterDoubleDash && token.value = doubleDash then ripgrepPaths filesMode patternProvided true false rest
    else if ! afterDoubleDash && token.value = "--files".toList then ripgrepPaths true patternProvided afterDoubleDash false rest
    else if ! afterDoubleDash && isOptionToken token.value then
      if rgValueOptions.contains (optionBase token.value) then
        ripgrepPaths filesMode (patternProvided || rgPatternOptions.contains (optionBase token.value)) afterDoubleDash
          (optionConsumesSeparateValue token.value rgValueOptions) rest
      else ripgrepPaths filesMode patternProvided afterDoubleDash false rest
    else if ! filesMode && ! patternProvided then ripgrepPaths filesMode true afterDoubleDash false rest
    else
      let (mode, paths) := ripgrepPaths filesMode patternProvided afterDoubleDash false rest
      (mode, token :: paths)

/-- `classifyRipgrep`. -/
def classifyRipgrep (tokens : List ShellToken) : ShellIoClassification :=
  let (filesMode, paths) := ripgrepPaths false false false false tokens.tail
  finishPathArgs "rg".toList paths (if filesMode then .directory else .unknown)

/-- The first loop of `classifyFind`: the paths and the expression that follows them. -/
def findPaths : (afterDoubleDash : Bool) → List ShellToken → List ShellToken × List ShellToken
  | _, [] => ([], [])
  | afterDoubleDash, token :: rest =>
    if ! afterDoubleDash && token.value = doubleDash then findPaths true rest
    else if ! afterDoubleDash && (['-'].isPrefixOf token.value || token.value = ['!'] || token.value = ['('] || token.value = [')'])
      then ([], token :: rest)
    else
      let (paths, expression) := findPaths afterDoubleDash rest
      (token :: paths, expression)

/-- `classifyFind`. -/
def classifyFind (tokens : List ShellToken) : ShellIoClassification :=
  let (paths, expression) := findPaths false tokens.tail
  if expression.any (findMutatingPrimaries.contains ·.value) then .unsupported .write_or_mutation (some "find".toList)
  else finishPathArgs "find".toList paths .directory

/-- The loop of `classifyLs`. -/
def lsPaths : (afterDoubleDash : Bool) → List ShellToken → List ShellToken
  | _, [] => []
  | afterDoubleDash, token :: rest =>
    if ! afterDoubleDash && token.value = doubleDash then lsPaths true rest
    else if ! afterDoubleDash && isOptionToken token.value then lsPaths afterDoubleDash rest
    else token :: lsPaths afterDoubleDash rest

/-- `classifyLs`. -/
def classifyLs (tokens : List ShellToken) : ShellIoClassification :=
  finishPathArgs "ls".toList (lsPaths false tokens.tail) .unknown

/-! ## Classification -/

/-- The command a wrapper runs: the third word, when the second is a command flag and the third is static. -/
def wrappedCommand : List ShellToken → Option (List Char)
  | _ :: flagToken :: innerToken :: _ =>
    if shellWrapperFlags.contains flagToken.value ∧ innerToken.value ≠ [] ∧ innerToken.dynamic = false then some innerToken.value
    else none
  | _ => none

/-- The verdict on a command that is not unwrapped. -/
def classifyTool (commandName : List Char) (tokens : List ShellToken) : ShellIoClassification :=
  if mutatingOrAmbiguousTools.contains commandName then .unsupported .write_or_mutation (some commandName)
  else if simpleFileReadTools.contains commandName then classifySimpleFileRead commandName tokens
  else if commandName = "sed".toList then classifySed tokens
  else if commandName = "grep".toList then classifyGrep tokens
  else if commandName = "rg".toList then classifyRipgrep tokens
  else if commandName = "find".toList then classifyFind tokens
  else if commandName = "ls".toList then classifyLs tokens
  else .unsupported .unsupported_tool (some commandName)

/-- `classifyShellCommandIoInternal`, by how many unwraps are left. -/
def classifyInternal (toLowerCase : List Char → List Char) : (unwraps : Nat) → (command : List Char) → ShellIoClassification
  | unwraps, command =>
    match tokenizeSimpleShell command with
    | .error reason => .unsupported reason none
    | .ok tokens =>
      match tokens.head? with
      | none => .unsupported .empty none
      | some commandToken =>
        if commandToken.dynamic then .unsupported .dynamic_path none
        else
          let commandName := commandBasename toLowerCase commandToken.value
          match unwraps with
          | 0 => classifyTool commandName tokens
          | unwraps + 1 =>
            if shellWrapperBasenames.contains commandName then
              match wrappedCommand tokens with
              | some inner => classifyInternal toLowerCase unwraps inner
              | none => classifyTool commandName tokens
            else classifyTool commandName tokens

/-- `classifyShellCommandIo`. -/
def classifyShellCommandIo (toLowerCase : List Char → List Char) (command : List Char) : ShellIoClassification :=
  classifyInternal toLowerCase maxWrapperUnwraps command

end ShellCommandIo

end FirstTree
