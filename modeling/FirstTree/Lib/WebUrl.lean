import Mathlib.Data.Bool.AllAny
import Mathlib.Data.List.Flatten
import Mathlib.Data.List.TakeWhile
import Mathlib.Data.Nat.Digits.Defs
import FirstTree.Lib.PercentCoding
import FirstTree.Lib.Trimming

/-!
# URLs of the web

The part of the URL standard that reads an absolute `https`, `http` or `ssh` URL: scheme, credentials, host and port, the path
with its dot segments resolved and its characters escaped, query and fragment. The host parser (internationalised names,
addresses) is a parameter, and so are the URLs of other schemes and whether the runtime escapes a caret in a path, which the
standard added late.
-/

namespace WebUrl

/-- A parsed URL, by the attributes a script reads. A user name and a password are kept as they were written: only their presence is
ever looked at. -/
structure Url where
  scheme : List Char
  username : List Char
  password : List Char
  hostname : List Char
  port : Option Nat
  pathname : List Char
  search : List Char
  hash : List Char
  deriving DecidableEq

/-- What a runtime brings to the parser. -/
structure Runtime where
  /-- The host parser of the special schemes, with its serialisation. -/
  parseHost : List Char → Option (List Char)
  /-- The host parser of the other schemes. -/
  parseOpaqueHost : List Char → Option (List Char)
  /-- The parser of what follows the colon of a scheme that is not modelled. -/
  parseOther : (scheme rest : List Char) → Option Url
  escapesCaret : Bool

/-! ## Paths -/

/-- A character a path keeps: a printable ASCII character other than a space, a quote, an angle bracket, a grave accent, a brace and
what starts a query or a fragment. -/
def keepsInPath (rt : Runtime) (c : Char) : Bool :=
  decide (0x21 ≤ c.toNat) && decide (c.toNat ≤ 0x7e) &&
    ! (['\x22', '#', '<', '>', '?', '\x60', '\x7b', '\x7d'].contains c) && ! (rt.escapesCaret && c = '^')

/-- The ways to write a dot. -/
def dots : List (List Char) := [".".toList, "%2e".toList, "%2E".toList]

/-- `.`, also escaped. -/
def isSingleDot (segment : List Char) : Bool := dots.contains segment

/-- `..`, each dot also escaped. -/
def isDoubleDot (segment : List Char) : Bool := (dots.flatMap fun a => dots.map (a ++ ·)).contains segment

/-- A segment that moves in the tree instead of naming something in it. -/
def isDotSegment (segment : List Char) : Bool := isSingleDot segment || isDoubleDot segment

/-- Read a segment that more segments follow. -/
def stepSegment (acc : List (List Char)) (segment : List Char) : List (List Char) :=
  if isDoubleDot segment then acc.dropLast else if isSingleDot segment then acc else acc ++ [segment]

/-- The path after reading segments: the dot segments are resolved, and one at the end leaves an empty segment. -/
def resolveSegments (acc : List (List Char)) : List (List Char) → List (List Char)
  | [] => acc
  | [last] => if isDotSegment last then stepSegment acc last ++ [[]] else acc ++ [last]
  | segment :: rest => resolveSegments (stepSegment acc segment) rest

/-- The characters that end a path segment. -/
def isPathSeparator (special : Bool) (c : Char) : Bool := c = '/' || (special && c = '\\')

/-- The text of a path. -/
def pathText (segments : List (List Char)) : List Char := segments.flatMap fun s => '/' :: s

/-- Parse a path. It is empty, or starts with a separator. -/
def parsePath (rt : Runtime) (special : Bool) : List Char → List Char
  | [] => if special then ['/'] else []
  | _ :: path =>
    pathText (resolveSegments [] ((path.splitOnP (isPathSeparator special)).map (PercentCoding.encode (keepsInPath rt))))

/-! ## Authorities -/

/-- The schemes with a slash-insensitive authority. -/
def isSpecial (scheme : List Char) : Bool := scheme ∈ ["https".toList, "http".toList]

/-- The port a scheme leaves out. -/
def defaultPort (scheme : List Char) : Option Nat :=
  if scheme = "https".toList then some 443 else if scheme = "http".toList then some 80 else none

/-- The text before the last occurrence of a character, if there is one, and the text after it. -/
def splitLast (c : Char) (t : List Char) : Option (List Char) × List Char :=
  if c ∈ t then (some ((t.reverse.dropWhile (· ≠ c)).drop 1).reverse, (t.reverse.takeWhile (· ≠ c)).reverse) else (none, t)

/-- The text up to the first colon outside brackets, and the rest from there. -/
def splitPort (insideBrackets : Bool) : List Char → List Char × List Char
  | [] => ([], [])
  | c :: rest =>
    if c = ':' ∧ insideBrackets = false then ([], c :: rest)
    else
      let inside := if c = '[' then true else if c = ']' then false else insideBrackets
      ((c :: (splitPort inside rest).1), (splitPort inside rest).2)

/-- The number a list of decimal digits denotes. -/
def decimal (digits : List Char) : Nat := digits.foldl (fun n c => 10 * n + (c.toNat - 48)) 0

/-- The decimal digits of a number. -/
def decimalText (n : Nat) : List Char :=
  if n = 0 then ['0'] else (Nat.digits 10 n).reverse.map fun d => Char.ofNat (48 + d)

/-- The port of an authority: none when it is empty or the default. -/
def parsePort (scheme : List Char) : List Char → Option (Option Nat)
  | [] => some none
  | _ :: digits =>
    if digits.all Char.isDigit = false ∨ 65535 < decimal digits then none
    else if digits = [] ∨ some (decimal digits) = defaultPort scheme then some none
    else some (some (decimal digits))

/-- Parse an authority: user name, password, host and port. -/
def parseAuthority (rt : Runtime) (scheme : List Char) (authority : List Char) :
    Option (List Char × List Char × List Char × Option Nat) :=
  let (credentials, hostAndPort) := splitLast '@' authority
  let (host, port) := splitPort false hostAndPort
  if host = [] then none
  else do
    let hostname ← (if isSpecial scheme then rt.parseHost else rt.parseOpaqueHost) host
    let port ← parsePort scheme port
    let userinfo := credentials.getD []
    pure (userinfo.takeWhile (· ≠ ':'), (userinfo.dropWhile (· ≠ ':')).drop 1, hostname, port)

/-! ## The parser -/

/-- A control character or a space. -/
def isC0OrSpace (c : Char) : Bool := decide (c.toNat ≤ 0x20)

/-- The input without surrounding controls and spaces, and without tabs and line breaks. -/
def cleanInput (input : List Char) : List Char :=
  (((input.dropWhile isC0OrSpace).reverse.dropWhile isC0OrSpace).reverse).filter fun c => ! (['\t', '\n', '\r'].contains c)

/-- A character of a scheme after the first. -/
def isSchemeChar (c : Char) : Bool := c.isAlphanum || c = '+' || c = '-' || c = '.'

/-- The scheme of an input, in lower case, and what follows its colon. -/
def splitScheme (input : List Char) : Option (List Char × List Char) :=
  match input.head?.any Char.isAlpha, input.dropWhile isSchemeChar with
  | true, ':' :: rest => some ((input.takeWhile isSchemeChar).map Char.toLower, rest)
  | _, _ => none

/-- The end of a path. -/
def startsQuery (c : Char) : Bool := c = '?' || c = '#'

/-- A component with its delimiter, empty when nothing follows the delimiter. -/
def component : List Char → List Char
  | [] => []
  | [_] => []
  | delimiter :: text => delimiter :: text

/-- Parse what follows the slashes of a scheme. -/
def parseAfterSlashes (rt : Runtime) (scheme rest : List Char) : Option Url :=
  let ends := fun c => isPathSeparator (isSpecial scheme) c || startsQuery c
  let tail := rest.dropWhile fun c => ! ends c
  let query := tail.dropWhile fun c => ! startsQuery c
  match parseAuthority rt scheme (rest.takeWhile fun c => ! ends c) with
  | none => none
  | some (username, password, hostname, port) =>
    some
      { scheme := scheme
        username := username
        password := password
        hostname := hostname
        port := port
        pathname := parsePath rt (isSpecial scheme) (tail.takeWhile fun c => ! startsQuery c)
        search := if query.head? = some '?' then component (query.takeWhile (· ≠ '#')) else []
        hash := component (query.dropWhile (· ≠ '#')) }

/-- `new URL(input)`. -/
def parse (rt : Runtime) (input : List Char) : Option Url :=
  match splitScheme (cleanInput input) with
  | none => none
  | some (scheme, rest) =>
    if isSpecial scheme then parseAfterSlashes rt scheme (rest.dropWhile (isPathSeparator true))
    else if scheme = "ssh".toList ∧ rest.take 2 = "//".toList then parseAfterSlashes rt scheme (rest.drop 2)
    else rt.parseOther scheme rest

/-- The port of a URL as it is written after the host. -/
def portText (port : Option Nat) : List Char := port.elim [] fun n => ':' :: decimalText n

/-- `url.host`. -/
def Url.host (u : Url) : List Char := u.hostname ++ portText u.port

/-- `url.origin` of a special scheme. -/
def Url.origin (u : Url) : List Char := u.scheme ++ "://".toList ++ u.host

/-! ## Segments -/

/-- The segments of a split hold no separator. -/
theorem not_mem_splitOnP {α : Type} {sep : α → Bool} {t seg : List α} (h : seg ∈ t.splitOnP sep) {c : α} (hc : c ∈ seg) :
    sep c = false ∧ c ∈ t := by
  induction t generalizing seg with
  | nil =>
    simp only [List.splitOnP_nil, List.mem_singleton] at h
    subst h
    exact absurd hc (by simp)
  | cons x t ih =>
    rw [List.splitOnP_cons_eq_if_modifyHead] at h
    split at h
    · rcases List.mem_cons.mp h with rfl | h
      · exact absurd hc (by simp)
      · exact ⟨(ih h hc).1, List.mem_cons_of_mem _ (ih h hc).2⟩
    · next hx =>
      obtain ⟨first, others, heq⟩ := List.exists_cons_of_ne_nil (List.splitOnP_ne_nil sep t)
      rw [heq, List.modifyHead_cons] at h
      rcases List.mem_cons.mp h with rfl | h
      · rcases List.mem_cons.mp hc with rfl | hc
        · exact ⟨by simpa using hx, List.mem_cons_self⟩
        · have hf := ih (heq ▸ List.mem_cons_self) hc
          exact ⟨hf.1, List.mem_cons_of_mem _ hf.2⟩
      · have hf := ih (heq ▸ List.mem_cons_of_mem _ h) hc
        exact ⟨hf.1, List.mem_cons_of_mem _ hf.2⟩

/-- The segments of a text split on a separator do not hold it. -/
theorem not_mem_of_mem_splitOn {a : Char} {t seg : List Char} (h : seg ∈ t.splitOn a) : a ∉ seg := by
  intro ha
  rw [List.splitOn_eq_splitOnP] at h
  simpa using (not_mem_splitOnP h ha).1

/-- A path text reads back as its segments, after the empty text before the first slash. -/
theorem splitOn_pathText {segments : List (List Char)} (h : ∀ s ∈ segments, '/' ∉ s) :
    (pathText segments).splitOn '/' = [] :: segments := by
  have key : ∀ (l : List (List Char)) (s : List Char), '/' ∉ s → (∀ r ∈ l, '/' ∉ r) → (s ++ pathText l).splitOn '/' = s :: l := by
    intro l
    induction l with
    | nil =>
      intro s hs _
      simpa [pathText] using List.splitOn_eq_singleton hs
    | cons r l ih =>
      intro s hs hl
      have := ih r (hl r List.mem_cons_self) fun x hx => hl x (List.mem_cons_of_mem _ hx)
      simp only [pathText, List.flatMap_cons, List.cons_append] at this ⊢
      rw [List.splitOn_append_cons_self_of_not_mem hs, this]
  exact key segments [] (by simp) h

/-- A segment of a resolved path is empty, was there before or is one of those read. -/
theorem mem_resolveSegments {acc l : List (List Char)} {s : List Char} (h : s ∈ resolveSegments acc l) : s = [] ∨
    s ∈ acc ∨ s ∈ l := by
  have step : ∀ (acc : List (List Char)) (x : List Char), s ∈ stepSegment acc x → s ∈ acc ∨ s = x := by
    intro acc x hs
    simp only [stepSegment] at hs
    split at hs
    · exact Or.inl ((List.dropLast_sublist acc).subset hs)
    · split at hs
      · exact Or.inl hs
      · simpa using hs
  induction acc, l using resolveSegments.induct with
  | case1 acc => exact Or.inr (Or.inl h)
  | case2 acc last hd =>
    rw [resolveSegments, if_pos hd, List.mem_append, List.mem_singleton] at h
    rcases h with h | h
    · rcases step acc last h with h | rfl
      · exact Or.inr (Or.inl h)
      · exact Or.inr (Or.inr List.mem_cons_self)
    · exact Or.inl h
  | case3 acc last hd =>
    rw [resolveSegments, if_neg hd, List.mem_append] at h
    exact Or.inr h
  | case4 acc segment rest hne ih =>
    rw [resolveSegments] at h
    · rcases ih h with h | h | h
      · exact Or.inl h
      · rcases step acc segment h with h | rfl
        · exact Or.inr (Or.inl h)
        · exact Or.inr (Or.inr List.mem_cons_self)
      · exact Or.inr (Or.inr (List.mem_cons_of_mem _ h))
    · exact hne

/-- Segments that do not move are appended. -/
theorem resolveSegments_plain {acc l : List (List Char)} (h : ∀ s ∈ l, isDotSegment s = false) :
    resolveSegments acc l = acc ++ l := by
  induction l generalizing acc with
  | nil => simp [resolveSegments]
  | cons s l ih =>
    have hs := h s List.mem_cons_self
    have hstep : stepSegment acc s = acc ++ [s] := by
      simp only [isDotSegment, Bool.or_eq_false_iff] at hs
      simp [stepSegment, hs.1, hs.2]
    cases l with
    | nil => simp [resolveSegments, hs]
    | cons r l =>
      rw [resolveSegments, hstep, ih fun x hx => h x (List.mem_cons_of_mem _ hx)]
      · simp
      · simp

/-- Segments that do not move are appended, also when more segments follow. -/
theorem foldl_stepSegment_plain {acc l : List (List Char)} (h : ∀ s ∈ l, isDotSegment s = false) :
    l.foldl stepSegment acc = acc ++ l := by
  induction l generalizing acc with
  | nil => simp
  | cons s l ih =>
    have hs := h s List.mem_cons_self
    simp only [isDotSegment, Bool.or_eq_false_iff] at hs
    have hstep : stepSegment acc s = acc ++ [s] := by simp [stepSegment, hs.1, hs.2]
    rw [List.foldl_cons, hstep, ih fun x hx => h x (List.mem_cons_of_mem _ hx)]
    simp

/-- Segments that do not move stay behind whatever the ones before them resolve to. -/
theorem resolveSegments_append {acc l r : List (List Char)} (hr : ∀ s ∈ r, isDotSegment s = false) (hne : r ≠ []) :
    resolveSegments acc (l ++ r) = l.foldl stepSegment acc ++ r := by
  induction l generalizing acc with
  | nil => exact resolveSegments_plain hr
  | cons s l ih =>
    rw [List.cons_append, resolveSegments]
    · exact ih
    · intro hcontra
      exact hne (List.append_eq_nil_iff.mp hcontra).2

/-- Resolving segments makes no more of them, and as many only when none moves. -/
theorem length_foldl_stepSegment (acc l : List (List Char)) :
    (l.foldl stepSegment acc).length ≤ acc.length + l.length ∧
      ((l.foldl stepSegment acc).length = acc.length + l.length →
        l.foldl stepSegment acc = acc ++ l ∧ ∀ s ∈ l, isDotSegment s = false) := by
  induction l generalizing acc with
  | nil => simp
  | cons s l ih =>
    obtain ⟨hle, heq⟩ := ih (stepSegment acc s)
    simp only [List.foldl_cons, List.length_cons]
    cases hs : isDotSegment s
    · have hstep : stepSegment acc s = acc ++ [s] := by
        simp only [isDotSegment, Bool.or_eq_false_iff] at hs
        simp [stepSegment, hs.1, hs.2]
      rw [hstep] at hle heq ⊢
      simp only [List.length_append, List.length_singleton] at hle heq
      refine ⟨by omega, fun h => ?_⟩
      obtain ⟨h₁, h₂⟩ := heq (by omega)
      refine ⟨by rw [h₁]; simp, fun x hx => ?_⟩
      rcases List.mem_cons.mp hx with rfl | hx
      · exact hs
      · exact h₂ x hx
    · have hstep : (stepSegment acc s).length ≤ acc.length := by
        simp only [isDotSegment, Bool.or_eq_true] at hs
        simp only [stepSegment]
        split
        · simp
        · split
          · exact le_refl _
          · rcases hs with hs | hs <;> simp_all
      exact ⟨by omega, fun h => absurd h (by omega)⟩

/-- Leaving out the empty segments makes fewer of them, unless none is empty. -/
theorem length_filter_nonempty (l : List (List Char)) :
    (l.filter fun s => ! s.isEmpty).length ≤ l.length ∧
      ((l.filter fun s => ! s.isEmpty).length = l.length → (l.filter fun s => ! s.isEmpty) = l ∧ ∀ s ∈ l, s ≠ []) := by
  refine ⟨List.length_filter_le _ _, fun h => ?_⟩
  have hall := List.length_filter_eq_length_iff.mp h
  exact ⟨List.filter_eq_self.mpr hall, fun s hs => by simpa using hall s hs⟩

/-! ## What a path is made of -/

/-- A character of the path of a special URL. -/
def isPathChar (rt : Runtime) (c : Char) : Bool := keepsInPath rt c && c ≠ '\x5c'

/-- A path keeps the characters of an escape. -/
theorem keepsInPath_escape (rt : Runtime) {c : Char} (h : PercentCoding.IsEscapeChar c) : isPathChar rt c = true ∧ c ≠ '/' := by
  have key : ∀ d ∈ ('%' :: PercentCoding.hexDigits), (∀ b, (decide (0x21 ≤ d.toNat) && decide (d.toNat ≤ 0x7e) &&
      ! (['\x22', '#', '<', '>', '?', '\x60', '\x7b', '\x7d'].contains d) && ! (b && d = '^') && d ≠ '\x5c') = true) ∧ d ≠ '/' :=
      List.all_iff_forall_prop.mp (by decide)
  have hmem : c ∈ ('%' :: PercentCoding.hexDigits) := List.mem_cons.mpr h
  exact ⟨(key c hmem).1 rt.escapesCaret, (key c hmem).2⟩

/-- The path of a special URL is made of slashes and path characters. -/
theorem mem_parsePath {rt : Runtime} {path : List Char} {c : Char} (h : c ∈ parsePath rt true path) :
    c = '/' ∨ (isPathChar rt c = true ∧ c ≠ '/') := by
  cases path with
  | nil => exact Or.inl (by simpa [parsePath] using h)
  | cons _ path =>
    simp only [parsePath, pathText, List.mem_flatMap] at h
    obtain ⟨s, hs, hc⟩ := h
    rcases List.mem_cons.mp hc with rfl | hc
    · exact Or.inl rfl
    · rcases mem_resolveSegments hs with rfl | hs | hs
      · exact absurd hc (by simp)
      · exact absurd hs (by simp)
      · obtain ⟨seg, hseg, rfl⟩ := List.mem_map.mp hs
        rcases PercentCoding.mem_encode hc with ⟨hk, hm⟩ | he
        · have hsep := (not_mem_splitOnP hseg hm).1
          simp only [isPathSeparator, Bool.true_and, Bool.or_eq_false_iff, decide_eq_false_iff_not] at hsep
          exact Or.inr ⟨by simp [isPathChar, hk, hsep.2], hsep.1⟩
        · exact Or.inr (keepsInPath_escape rt he)

/-- A path of slashes and path characters is split at its slashes only, and nothing in it is escaped. -/
theorem parsePath_plain {rt : Runtime} (special : Bool) {path : List Char} (h : ∀ c ∈ path, c = '/' ∨ isPathChar rt c = true) :
    parsePath rt special ('/' :: path) = pathText (resolveSegments [] (path.splitOn '/')) := by
  have hsplit : path.splitOnP (isPathSeparator special) = path.splitOn '/' := by
    rw [List.splitOn_eq_splitOnP]
    have hsep : ∀ c ∈ path, isPathSeparator special c = (c == '/') := by
      intro c hc
      have hb : c ≠ '\x5c' := by
        rcases h c hc with rfl | h
        · decide
        · simp only [isPathChar, Bool.and_eq_true, decide_eq_true_eq] at h
          exact h.2
      by_cases hs : c = '/' <;> simp [isPathSeparator, hb, hs]
    clear h
    induction path with
    | nil => rfl
    | cons x path ih =>
      rw [List.splitOnP_cons_eq_if_modifyHead, List.splitOnP_cons_eq_if_modifyHead, ih fun c hc => hsep c (List.mem_cons_of_mem _ hc),
        hsep x List.mem_cons_self]
  have hencode : ∀ s ∈ path.splitOn '/', PercentCoding.encode (keepsInPath rt) s = s := by
    intro s hs
    refine PercentCoding.encode_eq_self fun c hc => ?_
    rw [List.splitOn_eq_splitOnP] at hs
    obtain ⟨hne, hm⟩ := not_mem_splitOnP hs hc
    rcases h c hm with rfl | h
    · exact absurd hne (by decide)
    · simp only [isPathChar, Bool.and_eq_true] at h
      exact h.1
  rw [parsePath, hsplit, List.map_congr_left hencode, List.map_id']

/-! ## What the standard says of hosts -/

/-- A character of a serialised name: visible ASCII, in lower case, and none that ends a host. -/
def isHostNameChar (c : Char) : Bool :=
  decide (0x21 ≤ c.toNat) && decide (c.toNat ≤ 0x7e) && ! c.isUpper &&
    ! (['#', '/', ':', '<', '>', '?', '@', '[', '\x5c', ']', '^', '|', '%'].contains c)

/-- A character of a serialised address in brackets. -/
def isAddressChar (c : Char) : Bool := c.isDigit || (decide ('a' ≤ c) && decide (c ≤ 'f')) || c = ':' || c = '.'

/-- A serialised host: a name, or an address in brackets. -/
def IsHostText (h : List Char) : Prop :=
  (h ≠ [] ∧ ∀ c ∈ h, isHostNameChar c = true) ∨ ∃ inner, h = '[' :: (inner ++ [']']) ∧ ∀ c ∈ inner, isAddressChar c = true

/-- What the standard promises of the parsers that are parameters: a host serialises to a host text that parses to itself, and a URL
has the scheme it was written with. -/
structure Runtime.Documented (rt : Runtime) : Prop where
  hostText : ∀ {t h}, rt.parseHost t = some h → IsHostText h
  hostStable : ∀ {t h}, rt.parseHost t = some h → rt.parseHost h = some h
  otherScheme : ∀ {scheme rest u}, rt.parseOther scheme rest = some u → u.scheme = scheme

/-- A visible ASCII character other than an uppercase letter. -/
def isPlainLower (c : Char) : Bool := decide (0x21 ≤ c.toNat) && decide (c.toNat ≤ 0x7e) && ! c.isUpper

/-- A character of a serialised address is one of a short list. -/
theorem isAddressChar_mem {c : Char} (h : isAddressChar c = true) : c ∈ "0123456789abcdef:.".toList := by
  simp only [isAddressChar, Bool.or_eq_true, Char.isDigit, Bool.and_eq_true, decide_eq_true_eq] at h
  have hval : c = Char.ofNat c.toNat := (Char.ofNat_toNat c).symm
  have key : ∀ n : Fin 128, ((48 ≤ n.val ∧ n.val ≤ 57) ∨ (97 ≤ n.val ∧ n.val ≤ 102)) →
      Char.ofNat n.val ∈ "0123456789abcdef:.".toList := by decide
  rcases h with ((h | h) | h) | h
  · have h₁ : 48 ≤ c.toNat := h.1
    have h₂ : c.toNat ≤ 57 := h.2
    rw [hval]
    exact key ⟨c.toNat, by omega⟩ (Or.inl ⟨h₁, h₂⟩)
  · have h₁ : 97 ≤ c.toNat := h.1
    have h₂ : c.toNat ≤ 102 := h.2
    rw [hval]
    exact key ⟨c.toNat, by omega⟩ (Or.inr ⟨h₁, h₂⟩)
  · subst h
    decide
  · subst h
    decide

/-- A host text is plain and holds nothing that ends an authority or its user. -/
theorem IsHostText.plain {h : List Char} (hh : IsHostText h) :
    ∀ c ∈ h, isPlainLower c = true ∧ c ∉ ['/', '\x5c', '?', '#', '@'] := by
  intro c hc
  rcases hh with ⟨-, hname⟩ | ⟨inner, rfl, hinner⟩
  · have := hname c hc
    simp only [isHostNameChar, Bool.and_eq_true, Bool.not_eq_true', List.contains_eq_mem, decide_eq_false_iff_not] at this
    refine ⟨by simp [isPlainLower, this.1.1.1, this.1.1.2, this.1.2], fun hm => this.2 ?_⟩
    simp only [List.mem_cons, List.not_mem_nil, or_false] at hm ⊢
    tauto
  · have key : ∀ d ∈ "[]0123456789abcdef:.".toList, isPlainLower d = true ∧ d ∉ ['/', '\x5c', '?', '#', '@'] :=
      List.all_iff_forall_prop.mp (by decide)
    refine key c ?_
    simp only [List.mem_cons, List.mem_append, List.not_mem_nil, or_false] at hc
    rcases hc with rfl | hc | rfl
    · decide
    · have hsub : ∀ d ∈ "0123456789abcdef:.".toList, d ∈ "[]0123456789abcdef:.".toList := List.all_iff_forall_prop.mp (by decide)
      exact hsub c (isAddressChar_mem (hinner c hc))
    · decide

/-! ## Ports -/

/-- The digits of a number denote it. -/
theorem decimal_decimalText (n : Nat) : decimal (decimalText n) = n := by
  by_cases hn : n = 0
  · subst hn
    rfl
  · have hdigit : ∀ d ∈ Nat.digits 10 n, (Char.ofNat (48 + d)).toNat - 48 = d := by
      intro d hd
      have hlt := Nat.digits_lt_base (by decide) hd
      have key : ∀ k : Fin 10, (Char.ofNat (48 + k.val)).toNat - 48 = k.val := by decide
      exact key ⟨d, hlt⟩
    have key : ∀ l : List Nat, (∀ d ∈ l, (Char.ofNat (48 + d)).toNat - 48 = d) →
        decimal (l.reverse.map fun d => Char.ofNat (48 + d)) = Nat.ofDigits 10 l := by
      intro l
      induction l with
      | nil => intro _; rfl
      | cons d l ih =>
        intro hl
        have := ih fun x hx => hl x (List.mem_cons_of_mem _ hx)
        simp only [decimal, List.reverse_cons, List.map_append, List.map_cons, List.map_nil, List.foldl_append, List.foldl_cons,
          List.foldl_nil] at this ⊢
        rw [this, hl d List.mem_cons_self, Nat.ofDigits_cons]
        simp [Nat.add_comm]
    rw [decimalText, if_neg hn, key _ hdigit, Nat.ofDigits_digits]

/-- The digits of a number are digits, and there is one. -/
theorem decimalText_digits (n : Nat) : decimalText n ≠ [] ∧ ∀ c ∈ decimalText n, c ∈ "0123456789".toList := by
  by_cases hn : n = 0
  · subst hn
    exact ⟨by decide, List.all_iff_forall_prop.mp (by decide)⟩
  · rw [decimalText, if_neg hn]
    refine ⟨by simpa using Nat.digits_ne_nil_iff_ne_zero.mpr hn, fun c hc => ?_⟩
    obtain ⟨d, hd, rfl⟩ := List.mem_map.mp hc
    have hlt := Nat.digits_lt_base (by decide) (List.mem_reverse.mp hd)
    have key : ∀ k : Fin 10, Char.ofNat (48 + k.val) ∈ "0123456789".toList := by decide
    exact key ⟨d, hlt⟩

/-- A port a parsed URL may have. -/
def IsPort (scheme : List Char) (port : Option Nat) : Prop := ∀ n, port = some n → n ≤ 65535 ∧ some n ≠ defaultPort scheme

/-- A parsed port is one a URL may have. -/
theorem isPort_of_parsePort {scheme t : List Char} {port : Option Nat} (h : parsePort scheme t = some port) : IsPort scheme port := by
  intro n hn
  subst hn
  cases t with
  | nil => exact absurd h (by simp [parsePort])
  | cons _ digits =>
    simp only [parsePort] at h
    split at h
    · exact absurd h nofun
    · next hbad =>
      split at h
      · exact absurd h (by simp)
      · next hdef =>
        obtain rfl := Option.some.inj (Option.some.inj h)
        exact ⟨by omega, fun hd => hdef (Or.inr hd)⟩

/-- The text of a port parses to it. -/
theorem parsePort_portText {scheme : List Char} {port : Option Nat} (h : IsPort scheme port) :
    parsePort scheme (portText port) = some port := by
  cases port with
  | none => rfl
  | some n =>
    obtain ⟨hle, hdef⟩ := h n rfl
    obtain ⟨hne, hdigits⟩ := decimalText_digits n
    have hall : (decimalText n).all Char.isDigit = true := by
      have key : ∀ c ∈ "0123456789".toList, c.isDigit = true := List.all_iff_forall_prop.mp (by decide)
      exact List.all_eq_true.mpr fun c hc => key c (hdigits c hc)
    simp [portText, parsePort, hall, decimal_decimalText, hne, hdef, hle]

/-! ## Authorities -/

/-- A text without colons and brackets is passed over. -/
theorem splitPort_append {t : List Char} (h : ∀ c ∈ t, c ≠ ':' ∧ c ≠ '[' ∧ c ≠ ']') (b : Bool) (rest : List Char) :
    splitPort b (t ++ rest) = (t ++ (splitPort b rest).1, (splitPort b rest).2) := by
  induction t with
  | nil => rfl
  | cons c t ih =>
    obtain ⟨h₁, h₂, h₃⟩ := h c List.mem_cons_self
    simp [splitPort, h₁, h₂, h₃, ih fun x hx => h x (List.mem_cons_of_mem _ hx)]

/-- Inside brackets colons are passed over, too. -/
theorem splitPort_inside {t : List Char} (h : ∀ c ∈ t, c ≠ '[' ∧ c ≠ ']') (rest : List Char) :
    splitPort true (t ++ rest) = (t ++ (splitPort true rest).1, (splitPort true rest).2) := by
  induction t with
  | nil => rfl
  | cons c t ih =>
    obtain ⟨h₁, h₂⟩ := h c List.mem_cons_self
    simp [splitPort, h₁, h₂, ih fun x hx => h x (List.mem_cons_of_mem _ hx)]

/-- A host text ends at its port. -/
theorem splitPort_host {h : List Char} (hh : IsHostText h) (port : Option Nat) :
    splitPort false (h ++ portText port) = (h, portText port) := by
  have hport : splitPort false (portText port) = ([], portText port) := by cases port <;> simp [portText, splitPort]
  rcases hh with ⟨-, hname⟩ | ⟨inner, rfl, hinner⟩
  · rw [splitPort_append, hport, List.append_nil]
    intro c hc
    have := hname c hc
    simp only [isHostNameChar, Bool.and_eq_true, Bool.not_eq_true', List.contains_eq_mem, decide_eq_false_iff_not, List.mem_cons,
      List.not_mem_nil, or_false] at this
    tauto
  · have hin : ∀ c ∈ inner, c ≠ '[' ∧ c ≠ ']' := by
      intro c hc
      have key : ∀ d ∈ "0123456789abcdef:.".toList, d ≠ '[' ∧ d ≠ ']' := List.all_iff_forall_prop.mp (by decide)
      exact key c (isAddressChar_mem (hinner c hc))
    simp [splitPort, splitPort_inside hin, hport]

/-- A serialised host and port parse to themselves, without a user. -/
theorem parseAuthority_host {rt : Runtime} {scheme h : List Char} {port : Option Nat} (hd : rt.Documented)
    (hs : isSpecial scheme = true) (hh : rt.parseHost h = some h) (hp : IsPort scheme port) :
    parseAuthority rt scheme (h ++ portText port) = some ([], [], h, port) := by
  have htext := hd.hostText hh
  have hne : h ≠ [] := by
    rcases htext with ⟨hne, -⟩ | ⟨inner, rfl, -⟩
    · exact hne
    · simp
  have hat : '@' ∉ h ++ portText port := by
    intro hm
    rcases List.mem_append.mp hm with hm | hm
    · exact (htext.plain _ hm).2 (by simp)
    · cases port with
      | none => simp [portText] at hm
      | some n =>
        have hm' : '@' ∈ decimalText n := by simpa [portText] using hm
        exact absurd ((decimalText_digits n).2 _ hm') (by decide)
  simp [parseAuthority, splitLast, hat, splitPort_host htext, hne, hs, hh, parsePort_portText hp]

/-! ## Parsing -/

/-- Every part of a parsed special URL comes from the authority form. -/
theorem parse_special {rt : Runtime} (hd : rt.Documented) {t : List Char} {u : Url} (h : parse rt t = some u)
    (hs : isSpecial u.scheme = true) : ∃ rest, parseAfterSlashes rt u.scheme rest = some u := by
  have hscheme : ∀ scheme rest, parseAfterSlashes rt scheme rest = some u → u.scheme = scheme := by
    intro scheme rest h
    simp only [parseAfterSlashes] at h
    split at h
    · exact absurd h nofun
    · obtain rfl := Option.some.inj h
      rfl
  simp only [parse] at h
  split at h
  · exact absurd h nofun
  · next scheme rest _ =>
    split at h
    · rw [hscheme _ _ h]
      exact ⟨_, h⟩
    · next hsp =>
      split at h
      · rw [hscheme _ _ h] at hs
        exact absurd hs hsp
      · rw [hd.otherScheme h] at hs
        exact absurd hs hsp

/-- The host of a parsed special URL is a serialised one, with a port it may have. -/
theorem host_of_parse {rt : Runtime} (hd : rt.Documented) {t : List Char} {u : Url} (h : parse rt t = some u)
    (hs : isSpecial u.scheme = true) : rt.parseHost u.hostname = some u.hostname ∧ IsPort u.scheme u.port := by
  obtain ⟨rest, h⟩ := parse_special hd h hs
  simp only [parseAfterSlashes] at h
  split at h
  · exact absurd h nofun
  · next username password hostname port ha =>
    simp only [parseAuthority] at ha
    split at ha
    · exact absurd ha nofun
    · simp only [hs, Option.bind_eq_bind, Option.bind_eq_some_iff, Option.pure_def, Option.some.injEq, Prod.mk.injEq] at ha
      obtain ⟨hn, hhost, pt, hport, -, -, rfl, rfl⟩ := ha
      have hu := Option.some.inj h
      rw [← hu]
      exact ⟨hd.hostStable hhost, isPort_of_parsePort hport⟩

/-- The path of a parsed special URL is made of slashes and path characters. -/
theorem mem_pathname {rt : Runtime} (hd : rt.Documented) {t : List Char} {u : Url} (h : parse rt t = some u)
    (hs : isSpecial u.scheme = true) {c : Char} (hc : c ∈ u.pathname) : c = '/' ∨ (isPathChar rt c = true ∧ c ≠ '/') := by
  obtain ⟨rest, h⟩ := parse_special hd h hs
  simp only [parseAfterSlashes] at h
  split at h
  · exact absurd h nofun
  · have hu := Option.some.inj h
    rw [← hu] at hc
    rw [hs] at hc
    exact mem_parsePath hc

/-! ## Parsing a plain URL -/

/-- A visible ASCII character. -/
def IsVisible (c : Char) : Prop := 0x21 ≤ c.toNat ∧ c.toNat ≤ 0x7e

/-- A path character is visible and starts no query. -/
theorem isPathChar_visible {rt : Runtime} {c : Char} (h : isPathChar rt c = true) : IsVisible c ∧ startsQuery c = false := by
  simp only [isPathChar, keepsInPath, Bool.and_eq_true, decide_eq_true_eq, Bool.not_eq_true', List.contains_eq_mem,
    decide_eq_false_iff_not, List.mem_cons, List.not_mem_nil, or_false, not_or] at h
  refine ⟨⟨h.1.1.1.1, h.1.1.1.2⟩, ?_⟩
  simp only [startsQuery, Bool.or_eq_false_iff, decide_eq_false_iff_not]
  exact ⟨h.1.1.2.2.2.2.2.1, h.1.1.2.2.1⟩

/-- A text of visible characters is no input to clean. -/
theorem cleanInput_visible {t : List Char} (h : ∀ c ∈ t, IsVisible c) : cleanInput t = t := by
  have hdrop : ∀ l : List Char, (∀ c ∈ l, IsVisible c) → l.dropWhile isC0OrSpace = l := by
    intro l hl
    cases l with
    | nil => rfl
    | cons c l =>
      have hc := (hl c List.mem_cons_self).1
      rw [List.dropWhile_cons_of_neg]
      simp only [isC0OrSpace, decide_eq_true_eq]
      omega
  have hkeep : ∀ c ∈ t, (! (['\t', '\n', '\r'].contains c)) = true := by
    intro c hc
    have hv := (h c hc).1
    simp only [Bool.not_eq_true', List.contains_eq_mem, decide_eq_false_iff_not, List.mem_cons, List.not_mem_nil, or_false]
    rintro (rfl | rfl | rfl) <;> exact absurd hv (by decide)
  rw [cleanInput, hdrop t h, hdrop t.reverse fun c hc => h c (List.mem_reverse.mp hc), List.reverse_reverse,
    List.filter_eq_self.mpr hkeep]

/-- A serialised host and port hold no character that ends an authority. -/
theorem host_port_plain {h : List Char} (hh : IsHostText h) (port : Option Nat) :
    ∀ c ∈ h ++ portText port, isPlainLower c = true ∧ c ∉ ['/', '\x5c', '?', '#', '@'] := by
  intro c hc
  rcases List.mem_append.mp hc with hc | hc
  · exact hh.plain c hc
  · have key : ∀ d ∈ ":0123456789".toList, isPlainLower d = true ∧ d ∉ ['/', '\x5c', '?', '#', '@'] :=
      List.all_iff_forall_prop.mp (by decide)
    refine key c ?_
    cases port with
    | none => simp [portText] at hc
    | some n =>
      have hsub : ∀ d ∈ "0123456789".toList, d ∈ ":0123456789".toList := List.all_iff_forall_prop.mp (by decide)
      rcases List.mem_cons.mp hc with rfl | hc
      · decide
      · exact hsub c ((decimalText_digits n).2 c hc)

/-- The text behind an authority that nothing ends, from a plain path on. -/
theorem parseAfterSlashes_plain {rt : Runtime} {scheme authority path : List Char}
    (hauth : ∀ c ∈ authority, c ∉ ['/', '\x5c', '?', '#']) (hpath : ∀ c ∈ path, c = '/' ∨ isPathChar rt c = true) :
    parseAfterSlashes rt scheme (authority ++ '/' :: path) = (parseAuthority rt scheme authority).map fun parts =>
      ⟨scheme, parts.1, parts.2.1, parts.2.2.1, parts.2.2.2, pathText (resolveSegments [] (path.splitOn '/')), [], []⟩ := by
  have hends : ∀ c ∈ authority, (isPathSeparator (isSpecial scheme) c || startsQuery c) = false := by
    intro c hc
    have := hauth c hc
    simp only [List.mem_cons, List.not_mem_nil, or_false, not_or] at this
    simp [isPathSeparator, startsQuery, this]
  have hquery : ∀ c ∈ '/' :: path, startsQuery c = false := by
    intro c hc
    rcases List.mem_cons.mp hc with rfl | hc
    · decide
    · rcases hpath c hc with rfl | hc
      · decide
      · exact (isPathChar_visible hc).2
  have htake : (authority ++ '/' :: path).takeWhile (fun c => ! (isPathSeparator (isSpecial scheme) c || startsQuery c)) =
      authority := by
    rw [List.takeWhile_append_of_pos fun c hc => by simp [hends c hc]]
    simp [isPathSeparator]
  have hdrop : (authority ++ '/' :: path).dropWhile (fun c => ! (isPathSeparator (isSpecial scheme) c || startsQuery c)) =
      '/' :: path := by
    rw [List.dropWhile_append_of_pos fun c hc => by simp [hends c hc]]
    simp [isPathSeparator]
  have hqdrop : ('/' :: path).dropWhile (fun c => ! startsQuery c) = [] :=
    List.dropWhile_eq_nil_iff.mpr fun c hc => by simp [hquery c hc]
  have hqtake : ('/' :: path).takeWhile (fun c => ! startsQuery c) = '/' :: path :=
    List.takeWhile_eq_self_iff.mpr fun c hc => by simp [hquery c hc]
  simp only [parseAfterSlashes, htake, hdrop, hqdrop, hqtake, parsePath_plain (isSpecial scheme) hpath]
  cases parseAuthority rt scheme authority with
  | none => rfl
  | some parts => rfl

/-- A text of plain characters and a plain path is visible. -/
theorem visible_plain {rt : Runtime} {scheme authority path : List Char} (hscheme : ∀ c ∈ scheme, IsVisible c)
    (hauth : ∀ c ∈ authority, isPlainLower c = true) (hpath : ∀ c ∈ path, c = '/' ∨ isPathChar rt c = true) :
    ∀ c ∈ scheme ++ authority ++ '/' :: path, IsVisible c := by
  have hslash : IsVisible '/' := ⟨by decide, by decide⟩
  intro c hc
  rcases List.mem_append.mp hc with hc | hc
  · rcases List.mem_append.mp hc with hc | hc
    · exact hscheme c hc
    · have := hauth c hc
      simp only [isPlainLower, Bool.and_eq_true, decide_eq_true_eq] at this
      exact this.1
  · rcases List.mem_cons.mp hc with rfl | hc
    · exact hslash
    · rcases hpath c hc with rfl | hc
      · exact hslash
      · exact (isPathChar_visible hc).1

/-- A host, a port and a plain path after `https` parse to themselves. -/
theorem parse_plain {rt : Runtime} (hd : rt.Documented) {h path : List Char} {port : Option Nat} (hh : rt.parseHost h = some h)
    (hp : IsPort "https".toList port) (hpath : ∀ c ∈ path, c = '/' ∨ isPathChar rt c = true) :
    parse rt ("https://".toList ++ (h ++ portText port) ++ '/' :: path) =
      some ⟨"https".toList, [], [], h, port, pathText (resolveSegments [] (path.splitOn '/')), [], []⟩ := by
  have hauth := host_port_plain (hd.hostText hh) port
  have hnot : ∀ c ∈ h ++ portText port, c ∉ ['/', '\x5c', '?', '#'] := by
    intro c hc hm
    refine (hauth c hc).2 ?_
    simp only [List.mem_cons, List.not_mem_nil, or_false] at hm ⊢
    tauto
  have hne : h ++ portText port ≠ [] := by
    rcases hd.hostText hh with ⟨hne, -⟩ | ⟨inner, rfl, -⟩ <;> simp_all
  have hscheme : ∀ d ∈ "https://".toList, IsVisible d := by
    have key : ∀ d ∈ "https://".toList, 0x21 ≤ d.toNat ∧ d.toNat ≤ 0x7e := List.all_iff_forall_prop.mp (by decide)
    exact key
  have hclean := cleanInput_visible (visible_plain hscheme (fun c hc => (hauth c hc).1) hpath)
  have hsplit : splitScheme ("https://".toList ++ (h ++ portText port) ++ '/' :: path) =
      some ("https".toList, '/' :: '/' :: (h ++ portText port ++ '/' :: path)) := by
    rfl
  have hspecial : isSpecial "https".toList = true := by decide
  have hslashes : ('/' :: '/' :: (h ++ portText port ++ '/' :: path)).dropWhile (isPathSeparator true) =
      h ++ portText port ++ '/' :: path := by
    obtain ⟨c, l, hcl⟩ := List.exists_cons_of_ne_nil hne
    have hc := hnot c (hcl ▸ List.mem_cons_self)
    simp only [List.mem_cons, List.not_mem_nil, or_false, not_or] at hc
    have hsep : isPathSeparator true '/' = true := by decide
    rw [hcl, List.cons_append, List.dropWhile_cons_of_pos hsep, List.dropWhile_cons_of_pos hsep,
      List.dropWhile_cons_of_neg (by simp [isPathSeparator, hc])]
  rw [parse, hclean, hsplit]
  simp only [hspecial, if_true, hslashes, parseAfterSlashes_plain hnot hpath, parseAuthority_host hd hspecial hh hp, Option.map_some]

/-- The text after the last occurrence of a character. -/
theorem splitLast_append (c : Char) {a b : List Char} (hb : c ∉ b) : splitLast c (a ++ c :: b) = (some a, b) := by
  have hall : ∀ d ∈ b.reverse, decide (d ≠ c) = true := by
    intro d hd
    refine decide_eq_true ?_
    rintro rfl
    exact hb (List.mem_reverse.mp hd)
  have hrev : (a ++ c :: b).reverse = b.reverse ++ c :: a.reverse := by simp
  rw [splitLast, if_pos (by simp), hrev, List.dropWhile_append_of_pos hall, List.takeWhile_append_of_pos hall]
  simp

/-- A user, a host and a plain path after `ssh` parse to the host the parser makes of it, and to themselves. -/
theorem parse_ssh_plain {rt : Runtime} {h path : List Char} (hh : IsHostText h)
    (hpath : ∀ c ∈ path, c = '/' ∨ isPathChar rt c = true) :
    parse rt ("ssh://git@".toList ++ h ++ '/' :: path) = (rt.parseOpaqueHost h).map fun hostname =>
      ⟨"ssh".toList, "git".toList, [], hostname, none, pathText (resolveSegments [] (path.splitOn '/')), [], []⟩ := by
  have hat : '@' ∉ h := fun hm => (hh.plain _ hm).2 (by simp)
  have hne : h ≠ [] := by
    rcases hh with ⟨hne, -⟩ | ⟨inner, rfl, -⟩ <;> simp_all
  have hnot : ∀ c ∈ "git@".toList ++ h, c ∉ ['/', '\x5c', '?', '#'] := by
    have huser : ∀ c ∈ "git@".toList, c ∉ ['/', '\x5c', '?', '#'] := List.all_iff_forall_prop.mp (by decide)
    intro c hc hm
    rcases List.mem_append.mp hc with hc | hc
    · exact huser c hc hm
    · refine (hh.plain c hc).2 ?_
      simp only [List.mem_cons, List.not_mem_nil, or_false] at hm
      rcases hm with rfl | rfl | rfl | rfl <;> simp
  have hscheme : ∀ d ∈ "ssh://git@".toList, IsVisible d := by
    have key : ∀ d ∈ "ssh://git@".toList, 0x21 ≤ d.toNat ∧ d.toNat ≤ 0x7e := List.all_iff_forall_prop.mp (by decide)
    exact key
  have hclean := cleanInput_visible (visible_plain hscheme (fun c hc => (hh.plain c hc).1) hpath)
  have hsplit : splitScheme ("ssh://git@".toList ++ h ++ '/' :: path) =
      some ("ssh".toList, '/' :: '/' :: ("git@".toList ++ h ++ '/' :: path)) := by
    rfl
  have hauth : parseAuthority rt "ssh".toList ("git@".toList ++ h) =
      (rt.parseOpaqueHost h).map fun hostname => ("git".toList, [], hostname, none) := by
    have hsplit : splitLast '@' ("git".toList ++ '@' :: h) = (some "git".toList, h) := splitLast_append '@' hat
    have htext : "git@".toList ++ h = "git".toList ++ '@' :: h := rfl
    have hport : splitPort false h = (h, []) := by
      have := splitPort_host hh none
      rwa [portText, Option.elim_none, List.append_nil] at this
    have hspecial : isSpecial "ssh".toList = false := by decide
    rw [htext]
    simp only [parseAuthority, hsplit, hport, if_neg hne, hspecial, parsePort, Bool.false_eq_true, if_false]
    cases rt.parseOpaqueHost h with
    | none => rfl
    | some hostname => rfl
  rw [parse, hclean, hsplit]
  have hspecial : isSpecial "ssh".toList = false := by decide
  simp only [hspecial, List.take_succ_cons, List.take_zero, List.drop_succ_cons, List.drop_zero, parseAfterSlashes_plain hnot hpath,
    hauth, Option.map_map]
  rfl

/-- A character that cleaning an input keeps wherever it stands. -/
def IsKept (c : Char) : Prop := isC0OrSpace c = false ∧ ['\t', '\n', '\r'].contains c = false

/-- Cleaning leaves the start of an input, where it has nothing to clean. -/
theorem cleanInput_append {a : List Char} (hne : a ≠ []) (ha : ∀ c ∈ a, IsKept c) (t : List Char) :
    ∃ b, cleanInput (a ++ t) = a ++ b := by
  obtain ⟨b, hb⟩ := Trimming.trim_append hne
    ⟨fun c hc => (ha c (List.mem_of_mem_head? hc)).1, fun c hc => (ha c (List.mem_of_mem_getLast? hc)).1⟩ t
  refine ⟨b.filter fun c => ! (['\t', '\n', '\r'].contains c), ?_⟩
  have hkeep : a.filter (fun c => ! (['\t', '\n', '\r'].contains c)) = a :=
    List.filter_eq_self.mpr fun c hc => by rw [(ha c hc).2]; rfl
  calc cleanInput (a ++ t) = (Trimming.trim isC0OrSpace (a ++ t)).filter fun c => ! (['\t', '\n', '\r'].contains c) := rfl
    _ = a ++ b.filter fun c => ! (['\t', '\n', '\r'].contains c) := by rw [hb, List.filter_append, hkeep]

/-- A URL written with `https` has that scheme. -/
theorem scheme_https {rt : Runtime} {t : List Char} {u : Url} (h : parse rt ("https://".toList ++ t) = some u) :
    u.scheme = "https".toList := by
  obtain ⟨b, hb⟩ := cleanInput_append (a := "https://".toList) (by decide)
    (by unfold IsKept; exact List.all_iff_forall_prop.mp (by decide)) t
  have hsplit : splitScheme ("https://".toList ++ b) = some ("https".toList, '/' :: '/' :: b) := rfl
  have hspecial : isSpecial "https".toList = true := by decide
  simp only [parse, hb, hsplit, hspecial, if_true, parseAfterSlashes] at h
  split at h
  · cases h
  · obtain rfl := Option.some.inj h
    rfl

/-- A text whose first mark is an `@` is no URL. -/
theorem parse_scp {rt : Runtime} (t : List Char) : parse rt ("git@".toList ++ t) = none := by
  obtain ⟨b, hb⟩ := cleanInput_append (a := "git@".toList) (by decide)
    (by unfold IsKept; exact List.all_iff_forall_prop.mp (by decide)) t
  have hsplit : splitScheme ("git@".toList ++ b) = none := rfl
  rw [parse, hb, hsplit]

/-! ## What resolving leaves -/

/-- Reading a segment makes the path no longer than with the segment, and shorter when the segment moves. -/
theorem length_pathText_stepSegment (acc : List (List Char)) (s : List Char) :
    (pathText (stepSegment acc s)).length ≤ (pathText acc).length + (s.length + 1) ∧
      (isDotSegment s = true → (pathText (stepSegment acc s)).length ≤ (pathText acc).length) := by
  have hdrop : (pathText acc.dropLast).length ≤ (pathText acc).length := by
    unfold pathText
    exact ((List.dropLast_sublist acc).flatMap _).length_le
  unfold stepSegment
  split
  · exact ⟨by omega, fun _ => hdrop⟩
  · rename_i hdouble
    split
    · exact ⟨by omega, fun _ => Nat.le_refl _⟩
    · rename_i hsingle
      refine ⟨?_, fun hdot => ?_⟩
      · simp [pathText]
      · rw [isDotSegment, Bool.or_eq_true] at hdot
        exact absurd hdot (by simp [hdouble, hsingle])

/-- A segment that moves is not empty. -/
theorem length_dotSegment {s : List Char} (h : isDotSegment s = true) : 1 ≤ s.length := by
  cases s with
  | nil => exact absurd h (by decide)
  | cons c s => exact Nat.le_add_left 1 _

/-- Resolving segments makes the path shorter when one of them moves, and no longer in any case. -/
theorem length_pathText_resolve (acc l : List (List Char)) :
    (pathText (resolveSegments acc l)).length ≤ (pathText acc).length + (pathText l).length ∧
      ((∃ s ∈ l, isDotSegment s = true) →
        (pathText (resolveSegments acc l)).length < (pathText acc).length + (pathText l).length) := by
  induction acc, l using resolveSegments.induct with
  | case1 acc => exact ⟨by simp [resolveSegments, pathText], fun ⟨s, hs, _⟩ => absurd hs List.not_mem_nil⟩
  | case2 acc last hd =>
    have hstep := (length_pathText_stepSegment acc last).2 hd
    have hlen := length_dotSegment hd
    have hlast : (pathText (stepSegment acc last ++ [[]])).length = (pathText (stepSegment acc last)).length + 1 := by
      simp [pathText]
    have hl : (pathText [last]).length = last.length + 1 := by simp [pathText]
    rw [resolveSegments, if_pos hd, hlast, hl]
    exact ⟨by omega, fun _ => by omega⟩
  | case3 acc last hd =>
    refine ⟨by simp [resolveSegments, hd, pathText], ?_⟩
    rintro ⟨s, hs, hdot⟩
    rw [List.mem_singleton.mp hs] at hdot
    exact absurd hdot hd
  | case4 acc segment rest hne ih =>
    obtain ⟨hle, hlt⟩ := ih
    obtain ⟨hstep, hdot⟩ := length_pathText_stepSegment acc segment
    have hl : (pathText (segment :: rest)).length = segment.length + 1 + (pathText rest).length := by
      rw [pathText, List.flatMap_cons, List.length_append, List.length_cons]
      rfl
    rw [resolveSegments, hl]
    · refine ⟨by omega, ?_⟩
      rintro ⟨s, hs, hs'⟩
      rcases List.mem_cons.mp hs with rfl | hs
      · have := hdot hs'
        omega
      · have := hlt ⟨s, hs, hs'⟩
        omega
    · exact hne

/-- The path of a text is the text after a slash. -/
theorem pathText_splitOn (t : List Char) : pathText (t.splitOn '/') = '/' :: t := by
  have hjoin : ∀ (s : List Char) (l : List (List Char)), pathText (s :: l) = '/' :: ['/'].intercalate (s :: l) := by
    intro s l
    induction l generalizing s with
    | nil => simp [pathText]
    | cons r l ih =>
      have := ih r
      simp only [pathText, List.flatMap_cons, List.cons_append] at this ⊢
      rw [this, List.intercalate_cons_cons]
      simp
  obtain ⟨s, l, hsplit⟩ := List.exists_cons_of_ne_nil (List.splitOn_ne_nil '/' t)
  have hself : ['/'].intercalate (t.splitOn '/') = t := List.intercalate_splitOn '/'
  rw [hsplit] at hself ⊢
  rw [hjoin, hself]

end WebUrl
