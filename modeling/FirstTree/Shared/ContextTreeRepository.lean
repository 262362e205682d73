import FirstTree.Shared.ContextSourceLink

/-!
# Comparing Context Tree repositories

`sameContextTreeRepository`: two references to one repository have the same canonical identity, and the provider's rule on their
transports and origins accepts both.
-/

namespace FirstTree

/-- `ContextTreeProvider`. -/
inductive ContextTreeProvider where
  | github | gitlab
  deriving DecidableEq

namespace ContextTreeRepository

open ContextSourceLink

variable (p : Platform)

/-- `canonicalGitRepoUrl`. -/
def canonicalGitRepoUrl (value : List Char) : Option (List Char) := (canonicalGitRepoIdentity p value).map (·.canonical)

/-- `isGithubRepositoryTransport`. -/
def isGithubRepositoryTransport (value : List Char) : Bool :=
  match canonicalGitRepoIdentity p value with
  | none => false
  | some identity =>
    identity.host = "github.com".toList &&
      (! includesAuthorityMark (trim value) ||
        match WebUrl.parse p.toRuntime (trim value) with
        | none => false
        | some url =>
          if url.scheme = "ssh".toList then p.toLowerCase url.hostname = "github.com".toList
          else url.scheme = "https".toList && p.toLowerCase url.origin = "https://github.com".toList)

/-- `httpsRepositoryOrigin`. -/
def httpsRepositoryOrigin (value : List Char) : Option (List Char) :=
  if includesAuthorityMark (trim value) then
    (WebUrl.parse p.toRuntime (trim value)).bind fun url =>
      if url.scheme = "https".toList then some (p.toLowerCase url.origin) else none
  else none

/-- `resolveGitLabRepositoryWebIdentity(value, origin)?.originMatchesConnection === true`. -/
def originMatchesConnection (origin : Option (List Char)) (value : List Char) : Bool :=
  (resolveGitLabRepositoryWebIdentity p value origin).any (·.originMatchesConnection)

/-- `sameContextTreeRepository`. An empty origin counts as none. -/
def sameContextTreeRepository (provider : ContextTreeProvider) (gitlabInstanceOrigin left right : Option (List Char)) : Bool :=
  match left.bind (canonicalGitRepoIdentity p), right.bind (canonicalGitRepoIdentity p) with
  | some leftIdentity, some rightIdentity =>
    if leftIdentity.canonical ≠ rightIdentity.canonical then false
    else
      match provider with
      | .github => left.any (isGithubRepositoryTransport p) && right.any (isGithubRepositoryTransport p)
      | .gitlab =>
        match gitlabInstanceOrigin with
        | some (c :: origin) =>
          left.any (originMatchesConnection p (some (c :: origin))) && right.any (originMatchesConnection p (some (c :: origin)))
        | _ =>
          let leftOrigin := left.bind (httpsRepositoryOrigin p)
          let rightOrigin := right.bind (httpsRepositoryOrigin p)
          if leftOrigin ≠ none ∨ rightOrigin ≠ none then leftOrigin ≠ none ∧ rightOrigin ≠ none ∧ leftOrigin = rightOrigin else true
  | _, _ => false

end ContextTreeRepository

end FirstTree
