import FirstTree.Lib.WebUrl
import FirstTree.Shared.ShellCommandIo

/-!
# Links to cited sources

The canonical identity of a repository URL, the link `contextTreeSourceHref` builds for a cited node at an exact commit, and
`parseExactContextSourceLink`, which reads such a link back. Texts are lists of characters, so a text with an unpaired surrogate, for
which no link is built, is left out.
-/

namespace FirstTree

/-- What the runtime brings: the host parsers of URLs, and `toLowerCase`. -/
structure Platform extends WebUrl.Runtime where
  toLowerCase : List Char → List Char

/-- `CanonicalGitRepoIdentity`. -/
structure CanonicalGitRepoIdentity where
  canonical : List Char
  host : List Char
  path : List Char
  deriving DecidableEq

/-- `ContextTreeSourceRef`. -/
structure ContextTreeSourceRef where
  repoUrl : List Char
  commit : List Char
  nodePath : List Char

/-- `GitLabBlobRoute`: the blob route, and the one scoped under a dash. -/
inductive GitLabBlobRoute where
  | blob | dashBlob
  deriving DecidableEq

/-- `GitLabRepositoryWebIdentity`, without the clone URL. -/
structure GitLabRepositoryWebIdentity where
  origin : List Char
  path : List Char
  originMatchesConnection : Bool

/-- `ExactContextSourceLink`. -/
structure ExactContextSourceLink where
  commit : List Char
  nodePath : List Char
  repoUrl : List Char
  repositoryIdentity : List Char
  deriving DecidableEq

namespace ContextSourceLink

/-! ## Texts -/

/-- `String.prototype.trim`. -/
def trim (t : List Char) : List Char := ((t.dropWhile ShellCommandIo.isSpace).reverse.dropWhile ShellCommandIo.isSpace).reverse

/-- `value.includes("://")`. -/
def includesAuthorityMark (t : List Char) : Bool := t.tails.any fun s => "://".toList.isPrefixOf s

/-- A line terminator. -/
def isLineTerminator (c : Char) : Bool := ['\n', '\r', '\u2028', '\u2029'].contains c

/-- A hexadecimal digit. -/
def isHexDigit (c : Char) : Bool := c.isDigit || (decide ('a' ≤ c) && decide (c ≤ 'f')) || (decide ('A' ≤ c) && decide (c ≤ 'F'))

/-- `EXACT_COMMIT_RE`: a full object id. -/
def isExactCommit (t : List Char) : Bool := (t.length = 40 || t.length = 64) && t.all isHexDigit

/-- `path.toLowerCase().endsWith(".git")`. -/
def endsWithGit (p : Platform) (path : List Char) : Bool := ".git".toList.isSuffixOf (p.toLowerCase path)

/-! ## Repository identities -/

/-- `normalizeGitRepoPath`. -/
def normalizeGitRepoPath (p : Platform) (rawPath : List Char) : Option (List Char) :=
  let trimmed := ((rawPath.dropWhile (· = '/')).reverse.dropWhile (· = '/')).reverse
  let path := if endsWithGit p trimmed then trimmed.take (trimmed.length - 4) else trimmed
  if path = [] then none else some (p.toLowerCase path)

/-- A host up to the first colon, and a path on one line after it. -/
def hostAndPath (t : List Char) : Option (List Char × List Char) :=
  match t.takeWhile (· ≠ ':'), t.dropWhile (· ≠ ':') with
  | h :: host, ':' :: c :: path => if (c :: path).any isLineTerminator then none else some (h :: host, c :: path)
  | _, _ => none

/-- A character of the user of an scp-like text. -/
def isScpUserChar (c : Char) : Bool := c ≠ '@' && c ≠ '/' && ! ShellCommandIo.isSpace c

/-- The match of `^(?:[^@/\s]+@)?([^:]+):(.+)$`: with the user where that leads to a match, else without. -/
def scpLike (t : List Char) : Option (List Char × List Char) :=
  match t.takeWhile isScpUserChar, t.dropWhile isScpUserChar with
  | _ :: _, '@' :: rest => (hostAndPath rest).or (hostAndPath t)
  | _, _ => hostAndPath t

/-- An identity from a host and a path. -/
def identityOf (host path : List Char) : CanonicalGitRepoIdentity := ⟨host ++ '/' :: path, host, path⟩

/-- `canonicalGitRepoIdentity`. -/
def canonicalGitRepoIdentity (p : Platform) (value : List Char) : Option CanonicalGitRepoIdentity :=
  let trimmed := trim value
  match if includesAuthorityMark trimmed then none else scpLike trimmed with
  | some (host, rawPath) => (normalizeGitRepoPath p rawPath).map fun path => identityOf (p.toLowerCase host) path
  | none => do
    let url ← WebUrl.parse p.toRuntime trimmed
    let path ← normalizeGitRepoPath p url.pathname
    guard (url.hostname ≠ [])
    pure (identityOf (p.toLowerCase url.hostname) path)

/-! ## The repositories a binding accepts -/

/-- `[A-Za-z0-9_.-]`. -/
def isScpNameChar (c : Char) : Bool := c.isAlphanum || c = '_' || c = '.' || c = '-'

/-- The path of `SCP_LIKE_SSH_RE`: no colon, `@` or space, no leading slash, and no port before the first slash. -/
def isScpPath (path : List Char) : Bool :=
  let portLike := path.takeWhile Char.isDigit
  let afterDigits := path.dropWhile Char.isDigit
  ! (! portLike.isEmpty && (afterDigits.isEmpty || afterDigits.head? = some '/')) && ! path.isEmpty && path.head? ≠ some '/' &&
    path.all fun c => c ≠ ':' && c ≠ '@' && ! ShellCommandIo.isSpace c

/-- The part of `SCP_LIKE_SSH_RE` after the user. -/
def isScpHostAndPath (t : List Char) : Bool :=
  match t.takeWhile isScpNameChar, t.dropWhile isScpNameChar with
  | _ :: _, ':' :: path => isScpPath path
  | _, _ => false

/-- `isScpLikeSshUrl`. A name holds no `@` and no colon, so a text has a user in one way only. -/
def isScpLikeSshUrl (value : List Char) : Bool :=
  ! includesAuthorityMark value &&
    match value.takeWhile isScpNameChar, value.dropWhile isScpNameChar with
    | _ :: _, '@' :: rest => isScpHostAndPath rest
    | _, _ => isScpHostAndPath value

/-- `repoUrlSchema`. -/
def isRepoUrl (p : Platform) (value : List Char) : Bool :=
  ! value.isEmpty &&
    (isScpLikeSshUrl value ||
      match WebUrl.parse p.toRuntime value with
      | none => false
      | some url => (url.scheme = "https".toList || url.scheme = "ssh".toList) && url.password.isEmpty &&
          ! (url.scheme = "https".toList && ! url.username.isEmpty))

/-- `hasControlCharacter`. -/
def hasControlCharacter (value : List Char) : Bool :=
  value.any fun c => decide (c.toNat ≤ 0x1f) || (decide (0x7f ≤ c.toNat) && decide (c.toNat ≤ 0x9f))

/-- A text starts with a scheme, in any case. -/
def startsWithScheme (scheme value : List Char) : Bool := scheme.isPrefixOf (value.map Char.toLower)

/-- `CONTEXT_TREE_URL_FORM_RE`. -/
def isContextTreeUrlForm (value : List Char) : Bool :=
  let startsHost := fun t : List Char => t.head?.any fun c => c ≠ '/' && c ≠ '\x5c' && ! ShellCommandIo.isSpace c
  (startsWithScheme "https://".toList value && startsHost (value.drop 8)) ||
    (startsWithScheme "ssh://".toList value && startsHost (value.drop 6))

/-- `WINDOWS_DRIVE_PATH_RE`. -/
def isWindowsDrivePath (value : List Char) : Bool := value.head?.any Char.isAlpha && (value.drop 1).head? = some ':'

/-- `contextTreeRepoSchema`. -/
def isContextTreeRepo (p : Platform) (value : List Char) : Bool :=
  isRepoUrl p value && trim value = value && ! hasControlCharacter value && ! value.any isLineTerminator && ! value.contains '\x5c' &&
    ! value.contains '?' && ! value.contains '#' &&
    ((isScpLikeSshUrl value && ! startsWithScheme "http:".toList value && ! startsWithScheme "https:".toList value &&
        ! isWindowsDrivePath value) ||
      (isContextTreeUrlForm value &&
        match WebUrl.parse p.toRuntime value with
        | none => true
        | some url => ! url.hostname.isEmpty && (url.pathname.splitOn '/').any fun segment => ! segment.isEmpty))

/-! ## The connected GitLab -/

/-- `normalizeGitLabWebOrigin`. -/
def normalizeGitLabWebOrigin (p : Platform) (value : Option (List Char)) : Option (List Char) := do
  let url ← WebUrl.parse p.toRuntime (trim (← value))
  guard ((url.scheme = "https".toList ∨ url.scheme = "http".toList) ∧ url.username = [] ∧ url.password = [] ∧ url.pathname = ['/'] ∧
    url.search = [] ∧ url.hash = [])
  pure (p.toLowerCase url.origin)

/-- The origin of a repository URL, where its transport is the web; none for `ssh` and scp-like forms; a refusal for others. -/
def transportOrigin (p : Platform) (value : List Char) : Option (Option (List Char)) :=
  if includesAuthorityMark value then
    match WebUrl.parse p.toRuntime value with
    | none => none
    | some url =>
      if WebUrl.isSpecial url.scheme then some (some (p.toLowerCase url.origin))
      else if url.scheme = "ssh".toList then some none
      else none
  else some none

/-- `resolveGitLabRepositoryWebIdentity`. -/
def resolveGitLabRepositoryWebIdentity (p : Platform) (repo : List Char) (instanceOrigin : Option (List Char)) :
    Option GitLabRepositoryWebIdentity := do
  let origin ← normalizeGitLabWebOrigin p instanceOrigin
  let identity ← canonicalGitRepoIdentity p repo
  guard (identity.host ≠ "github.com".toList)
  let originUrl ← WebUrl.parse p.toRuntime origin
  let transport ← transportOrigin p (trim repo)
  pure
    { origin := origin
      path := identity.path
      originMatchesConnection :=
        match transport with
        | some transport => transport = origin
        | none => identity.host = p.toLowerCase originUrl.hostname }

/-- `(-[0-9A-Za-z]+(?:[.-][0-9A-Za-z]+)*)?`. -/
def isVersionSuffix : List Char → Bool
  | [] => true
  | c :: suffix => c = '-' && (suffix.splitOnP fun c => c = '.' || c = '-').all fun part => ! part.isEmpty && part.all Char.isAlphanum

/-- The rest of a version after its minor number, without the third number. -/
def afterPatch : List Char → Option (List Char)
  | '.' :: rest => if (rest.takeWhile Char.isDigit).isEmpty then none else some (rest.dropWhile Char.isDigit)
  | rest => some rest

/-- The match of `GITLAB_VERSION_RE`: major and minor number, and the channel suffix. -/
def gitlabVersion (t : List Char) : Option (Nat × Nat × List Char) :=
  match t.takeWhile Char.isDigit, t.dropWhile Char.isDigit with
  | m :: major, '.' :: rest => do
    let minor := rest.takeWhile Char.isDigit
    guard (minor ≠ [])
    let suffix ← afterPatch (rest.dropWhile Char.isDigit)
    guard (isVersionSuffix suffix)
    pure (WebUrl.decimal (m :: major), WebUrl.decimal minor, suffix)
  | _, _ => none

/-- `Number.MAX_SAFE_INTEGER`. -/
def maxSafeInteger : Nat := 9007199254740991

/-- `GITLAB_STABLE_CHANNEL_SUFFIX_RE`. -/
def isStableChannelSuffix (suffix : List Char) : Bool :=
  suffix.map Char.toLower = "-ce".toList || suffix.map Char.toLower = "-ee".toList

/-- `gitlabBlobRouteForVersion`. -/
def gitlabBlobRouteForVersion (version : Option (List Char)) : Option GitLabBlobRoute := do
  let (major, minor, suffix) ← gitlabVersion (trim (← version))
  guard (1 ≤ major ∧ major ≤ maxSafeInteger ∧ minor ≤ maxSafeInteger)
  if major < 12 ∨ (major = 12 ∧ minor < 7) then pure .blob
  else if 12 < major ∨ (major = 12 ∧ 7 < minor) then pure .dashBlob
  else pure (if suffix = [] ∨ isStableChannelSuffix suffix then .dashBlob else .blob)

/-- The text of a route. -/
def routeText : GitLabBlobRoute → List Char
  | .blob => "/blob/".toList
  | .dashBlob => '/' :: "-/blob/".toList

/-! ## Building a link -/

/-- The characters `encodeURIComponent` keeps. -/
def isUriUnreserved (c : Char) : Bool := c.isAlphanum || ['-', '_', '.', '!', '~', '*', '\x27', '(', ')'].contains c

/-- `encodeURIComponent`. -/
def encodeURIComponent (t : List Char) : List Char := PercentCoding.encode isUriUnreserved t

/-- `.replace(/[!'()*]/gu, …)`: the escapes of the marks `encodeURIComponent` keeps. -/
def escapeMarks (t : List Char) : List Char := PercentCoding.encode (fun c => ! (['!', '\x27', '(', ')', '*'].contains c)) t

/-- A letter of `/[a-z]/iu`, which under Unicode folding has two more: the long s and the Kelvin sign. -/
def isDriveLetter (c : Char) : Bool := c.isAlpha || c = '\u017f' || c = '\u212a'

/-- `/^[a-z]:\//iu`. -/
def startsWithDrive (t : List Char) : Bool := t.head?.any isDriveLetter && (t.drop 1).take 2 = [':', '/']

/-- The checks on a segment of a node path. -/
def isNodeSegment (segment : List Char) : Bool :=
  ! segment.isEmpty && segment ≠ ['.'] && segment ≠ ['.', '.'] && segment.all fun c => ! decide (c.toNat ≤ 0x1f) && c.toNat ≠ 0x7f

/-- `encodeSourceNodePath`. -/
def encodeSourceNodePath (nodePath : List Char) : Option (List Char) :=
  if nodePath = [] ∨ nodePath.head? = some '/' ∨ nodePath.getLast? = some '/' ∨ startsWithDrive nodePath ∨ nodePath.contains '\x5c' ∨
      (nodePath.splitOn '/').all isNodeSegment = false then none
  else some (['/'].intercalate ((nodePath.splitOn '/').map fun segment => escapeMarks (encodeURIComponent segment)))

/-- The link of a node: repository web address, route, commit and encoded path. -/
def blobLink (repository : List Char) (route : GitLabBlobRoute) (commit path : List Char) : List Char :=
  repository ++ routeText route ++ commit ++ '/' :: path

/-- `contextTreeSourceHref`. -/
def contextTreeSourceHref (p : Platform) (source : ContextTreeSourceRef) (gitlabInstanceOrigin gitlabVersion : Option (List Char)) :
    Option (List Char) := do
  guard (isExactCommit source.commit ∧ isContextTreeRepo p source.repoUrl)
  let identity ← canonicalGitRepoIdentity p source.repoUrl
  let path ← encodeSourceNodePath source.nodePath
  if identity.host = "github.com".toList then
    pure (blobLink ("https://github.com/".toList ++ identity.path) .blob source.commit path)
  else
    let gitlab ← resolveGitLabRepositoryWebIdentity p source.repoUrl gitlabInstanceOrigin
    guard (gitlab.originMatchesConnection ∧ "https://".toList.isPrefixOf gitlab.origin)
    let route ← gitlabBlobRouteForVersion gitlabVersion
    pure (blobLink (gitlab.origin ++ '/' :: gitlab.path) route source.commit path)

/-! ## Reading a link -/

/-- `/\.git$/iu`. -/
def hasGitSuffix (t : List Char) : Bool := ".git".toList.isSuffixOf (t.map Char.toLower)

/-- `.replace(/\.git$/iu, "")`. -/
def dropGitSuffix (t : List Char) : List Char := if hasGitSuffix t then t.take (t.length - 4) else t

/-- The segments before the first `blob` that an exact commit follows, the commit, and the segments after it. -/
def splitAtBlob : List (List Char) → Option (List (List Char) × List Char × List (List Char))
  | [] => none
  | [_] => none
  | segment :: next :: rest =>
    if segment = "blob".toList ∧ isExactCommit next then some ([], next, rest)
    else (splitAtBlob (next :: rest)).map fun found => (segment :: found.1, found.2)

/-- The segments of the repository: without the `-` of a scoped route. -/
def repositorySegments (before : List (List Char)) : List (List Char) :=
  if before.getLast? = some ['-'] then before.dropLast else before

/-- `segments.slice(blobIndex + 2).map(decodeURIComponent).join("/")`. -/
def decodeNodePath (segments : List (List Char)) : Option (List Char) :=
  (segments.mapM PercentCoding.decode).map fun decoded => ['/'].intercalate decoded

/-- `parseExactContextSourceLink`. -/
def parseExactContextSourceLink (p : Platform) (value : List Char) : Option ExactContextSourceLink := do
  let url ← WebUrl.parse p.toRuntime value
  guard (url.scheme = "https".toList ∧ url.username = [] ∧ url.password = [] ∧ url.search = [] ∧ url.hash = [])
  let (before, commit, after) ← splitAtBlob ((url.pathname.splitOn '/').filter fun segment => ! segment.isEmpty)
  guard (before ≠ [] ∧ after ≠ [] ∧ repositorySegments before ≠ [])
  let repositoryPath := dropGitSuffix (['/'].intercalate (repositorySegments before))
  let nodePath ← decodeNodePath after
  guard (repositoryPath ≠ [] ∧ nodePath ≠ [])
  pure
    { commit := p.toLowerCase commit
      nodePath := nodePath
      repoUrl := url.scheme ++ "://".toList ++ url.host ++ '/' :: repositoryPath
      repositoryIdentity := p.toLowerCase url.host ++ '/' :: p.toLowerCase repositoryPath }

end ContextSourceLink

end FirstTree
