import Mathlib.Data.Rat.Floor
import Mathlib.Order.WithBot
import FirstTree.Lib.Binary64
import FirstTree.Lib.Regex
import FirstTree.Shared.ShellCommandIo

/-!
# The retry policy for provider failures

How a failure of a provider is classified, how long the provider asks to wait, and whether the failed turn or session is tried
again and after how long. Waits are whole milliseconds, or infinity; numbers of the runtime are doubles. Texts are lists of
characters; the case mapping, the parsing of dates and the clock are the runtime's.
-/

namespace FirstTree

/-- A wait in milliseconds. -/
abbrev Wait := WithTop Nat

/-- `ProviderFailureCategory`. -/
inductive ProviderFailureCategory where
  | runtime_transport | transient_transport | provider_capacity | credential | capability | configuration |
    deterministic_input | unknown
  deriving DecidableEq, Repr

/-- `ProviderRetryScope`. -/
inductive ProviderRetryScope where
  | session_start | session_resume | provider_turn
  deriving DecidableEq, Repr

/-- `ReplaySafety`. -/
inductive ReplaySafety where
  | pre_provider | pre_visible | provider_entered | user_visible | unsafe_to_replay | unknown
  deriving DecidableEq, Repr

/-- `ProviderFailureClassification`. -/
structure ProviderFailureClassification where
  category : ProviderFailureCategory
  reasonCode : String
  retryAfterMs : Option Wait

/-- Whether a retry keeps the turn in the foreground. -/
inductive RetryMode where
  | foreground | background
  deriving DecidableEq, Repr

/-- How loud a decision is. -/
inductive UserSeverity where
  | info | warning | error
  deriving DecidableEq, Repr

/-- Why a failure is not retried. -/
inductive TerminalKind where
  | deterministic | exhausted | unsafe_replay | needs_operator | capacity_wait_required | runtime_rebind_required
  deriving DecidableEq, Repr

/-- `ProviderRetryDecision`. -/
inductive ProviderRetryDecision where
  | retry (reasonCode : String) (attempt : Nat) (maxAttempts : Option Nat) (delayMs : Wait) (retryMode : RetryMode)
    (replaySafety : ReplaySafety) (userSeverity : UserSeverity)
  | stop (reasonCode : String) (terminalKind : TerminalKind) (replaySafety : ReplaySafety) (userSeverity : UserSeverity)

/-- A number of JavaScript, finite or not. -/
inductive JsNumber where
  | finite (value : ℚ)
  | nonFinite
  deriving DecidableEq

/-- `retryAfter` of an error. -/
inductive RetryAfter where
  | number (value : JsNumber)
  | text (value : List Char)
  deriving DecidableEq

/-- The fields of an error that the policy reads, the code as a template prints it. -/
structure ErrorShape where
  name : Option (List Char)
  message : Option (List Char)
  code : Option (List Char)
  reason : Option (List Char)
  retryAfterMs : Option JsNumber
  retryAfter : Option RetryAfter

/-- The functions and the clock of the runtime. `Date.parse` answers nothing for `NaN`. -/
structure RetryEnvironment where
  toLowerCase : List Char → List Char
  dateParse : List Char → Option Int
  now : Int

/-- A failure of the managed Skills. -/
inductive ManagedSkillsFailure where
  | state (reason : String)
  | unsafeDiscovery
  deriving DecidableEq

/-- The categories that come before capacity. -/
inductive EarlierCategory where
  | capability | credential | configuration | deterministic_input
  deriving DecidableEq

/-- What else the classification reads of a failure: its taxonomy, and the checks of its text that do not lead to capacity. -/
structure FailureChecks where
  baseReasonCode : String
  isGrokOrPi : Bool
  runtimeSessionProofReason : ErrorShape → List Char → Option String
  managedSkills : Option ManagedSkillsFailure
  beforeCapacity : ErrorShape → List Char → Option (EarlierCategory × String)
  transient : List Char → Option String

namespace ProviderRetryPolicy

open Regex Binary64

/-! ## Constants -/

/-- `PROVIDER_TURN_MAX_RETRIES`. -/
def providerTurnMaxRetries : Nat := 2

/-- `PROVIDER_TURN_DELAYS_MS`. -/
def providerTurnDelaysMs : List Nat := [500, 1500]

/-- `PROVIDER_TURN_CAPACITY_SHORT_WAIT_MS`. -/
def providerTurnCapacityShortWaitMs : Nat := 30000

/-- `UNKNOWN_MAX_RETRIES`. -/
def unknownMaxRetries : Nat := 2

/-- `UNKNOWN_DELAYS_MS`. -/
def unknownDelaysMs : List Nat := [5000, 15000]

/-- `SESSION_FOREGROUND_RETRIES`. -/
def sessionForegroundRetries : Nat := 3

/-- `SESSION_TRANSIENT_CAP_MS`. -/
def sessionTransientCapMs : Nat := 60000

/-- `SESSION_CAPACITY_CAP_MS`. -/
def sessionCapacityCapMs : Nat := 5 * 60000

/-! ## The wait that an error states -/

/-- `Math.floor` of a number that is not negative. -/
def floorMs : Option ℚ → Wait
  | none => ⊤
  | some x => (⌊x⌋₊ : Nat)

/-- The number of some decimal digits. -/
def digitsValue (digits : List Char) : Nat := digits.foldl (fun n c => n * 10 + (c.toNat - '0'.toNat)) 0

/-- The digits at the front of a text, and the rest. -/
def spanDigits (t : List Char) : List Char × List Char := (t.takeWhile Char.isDigit, t.dropWhile Char.isDigit)

/-- The digits of an exponent with its sign, none when there is no exponent. -/
def exponentOf (t : List Char) : Option Int :=
  match t with
  | [] => some 0
  | e :: rest =>
    let (negative, digits) := match rest with
      | '-' :: digits => (true, digits)
      | '+' :: digits => (false, digits)
      | digits => (false, digits)
    if (e = 'e' ∨ e = 'E') ∧ digits ≠ [] ∧ digits.all Char.isDigit then
      some (if negative then -(digitsValue digits : Int) else digitsValue digits)
    else none

/-- `StrUnsignedDecimalLiteral`, but for infinity. -/
def unsignedDecimal (t : List Char) : Option ℚ :=
  let (whole, rest) := spanDigits t
  let (fraction, rest) := match rest with
    | '.' :: rest => spanDigits rest
    | rest => ([], rest)
  if whole = [] ∧ fraction = [] then none
  else (exponentOf rest).map fun e : Int => (digitsValue (whole ++ fraction) : ℚ) * 10 ^ (e - (fraction.length : Int))

/-- The value of a digit of a radix. -/
def radixDigit (c : Char) : Nat :=
  if c.isDigit then c.toNat - '0'.toNat else if c.isLower then c.toNat - 'a'.toNat + 10 else c.toNat - 'A'.toNat + 10

/-- The digits of a literal with a radix. -/
def radixLiteral (radix : Nat) (digits : List Char) : Option ℚ :=
  if digits ≠ [] ∧ digits.all (fun c => c.isAlphanum && decide (radixDigit c < radix)) then
    some (digits.foldl (fun n c => n * radix + radixDigit c) 0 : Nat)
  else none

/-- The number that a text denotes, before it is rounded to a double: `Number` of the text but for infinity. -/
def numericValue (t : List Char) : Option ℚ :=
  let t := ((t.dropWhile ShellCommandIo.isSpace).reverse.dropWhile ShellCommandIo.isSpace).reverse
  match t with
  | [] => some 0
  | '0' :: 'x' :: digits | '0' :: 'X' :: digits => radixLiteral 16 digits
  | '0' :: 'o' :: digits | '0' :: 'O' :: digits => radixLiteral 8 digits
  | '0' :: 'b' :: digits | '0' :: 'B' :: digits => radixLiteral 2 digits
  | '-' :: rest => (unsignedDecimal rest).map fun q => -q
  | '+' :: rest => unsignedDecimal rest
  | rest => unsignedDecimal rest

/-- The seconds that a text denotes and the double that holds them, when they are a finite number that is not negative. -/
def secondsOf (t : List Char) : Option (ℚ × ℚ) :=
  match numericValue t with
  | some q => if 0 ≤ q then (Binary64.round q).map fun x => (q, x) else none
  | none => none

/-- `/resets in (?:(\d+)h)?(?:(\d+)m)?(?:(\d+)s)?/`. -/
def resetsInRe : Regex Char :=
  seqs [literal "resets in ".toList,
    opt (seqs [group 1 (seqs [char Char.isDigit, star (char Char.isDigit)]), char (· == 'h')]),
    opt (seqs [group 2 (seqs [char Char.isDigit, star (char Char.isDigit)]), char (· == 'm')]),
    opt (seqs [group 3 (seqs [char Char.isDigit, star (char Char.isDigit)]), char (· == 's')])]

/-- The hours, minutes and seconds of a text, as it writes them. -/
def resetsIn (text : List Char) : Option (List Char × List Char × List Char) :=
  match resetsInRe.search text with
  | none => none
  | some m =>
    if m.capture 1 = none ∧ m.capture 2 = none ∧ m.capture 3 = none then none
    else some ((m.capture 1).getD ['0'], (m.capture 2).getD ['0'], (m.capture 3).getD ['0'])

/-- The number of some digits as a double. -/
def digitsNumber (digits : List Char) : Option ℚ := Binary64.round (digitsValue digits)

/-- `parseResetsInDurationMs`. -/
def parseResetsInDurationMs (text : List Char) : Option Wait :=
  match resetsIn text with
  | none => none
  | some (hours, minutes, seconds) =>
    let totalMs := toInt32
      (times 1000 (plus (plus (times 3600 (digitsNumber hours)) (times 60 (digitsNumber minutes))) (digitsNumber seconds)))
    if 0 < totalMs then some (totalMs.toNat : Nat) else none

/-- `readRetryAfterMs` of a text. -/
def readRetryAfterText (env : RetryEnvironment) (t : List Char) : Option Wait :=
  match secondsOf t with
  | some (_, x) => some (floorMs (times 1000 (some x)))
  | none => (env.dateParse t).map fun dateMs => ((dateMs - env.now).toNat : Nat)

/-- `readRetryAfterMs`. -/
def readRetryAfterMs (env : RetryEnvironment) (shape : ErrorShape) : Option Wait :=
  match shape.retryAfterMs, shape.retryAfter with
  | some (.finite v), retryAfter =>
    if 0 ≤ v then some (⌊v⌋₊ : Nat) else readRetryAfter retryAfter
  | _, retryAfter => readRetryAfter retryAfter
where
  /-- `readRetryAfterMs` of `retryAfter`. -/
  readRetryAfter : Option RetryAfter → Option Wait
    | some (.number (.finite x)) => if 0 ≤ x then some (floorMs (times 1000 (some x))) else none
    | some (.text t) => readRetryAfterText env t
    | _ => none

/-! ## Classification -/

/-- Whether a text has another in it. -/
def includes (text part : List Char) : Bool := ((literal part).search text).isSome

/-- Whether a text has one of some parts in it. -/
def includesAny (text : List Char) (parts : List String) : Bool := parts.any fun part => includes text part.toList

/-- `/rate.?limit/`. -/
def rateLimitRe : Regex Char :=
  seqs [literal "rate".toList, opt (char fun c => ! (['\n', '\r', '\u2028', '\u2029'].contains c)), literal "limit".toList]

/-- The text that the checks read. -/
def failureText (env : RetryEnvironment) (shape : ErrorShape) : List Char :=
  env.toLowerCase (shape.name.getD [] ++ ' ' :: (shape.message.getD [] ++ ' ' :: (shape.code.getD [] ++ ' ' :: shape.reason.getD [])))

/-- `isBillingLimit`. -/
def isBillingLimit (text : List Char) : Bool :=
  includesAny text ["billing_error", "insufficient account balance", "credit balance is too low", "credits_required",
    "out_of_credits"] || (includes text "billing".toList && includes text "credit".toList)

/-- `isExhaustedCapacityPhrasing`. -/
def isExhaustedCapacityPhrasing (checks : FailureChecks) (text : List Char) : Bool :=
  checks.isGrokOrPi && includesAny text ["too many requests", "resource has been exhausted"]

/-- `isCapacity`. -/
def isCapacity (checks : FailureChecks) (text : List Char) (retryAfterMs : Option Wait) : Bool :=
  retryAfterMs.isSome || includes checks.baseReasonCode.toList "rate_limit".toList || (rateLimitRe.search text).isSome ||
    includesAny text ["usage limit", "session limit", "quota", "insufficient_quota", "overloaded", "capacity"] ||
    isExhaustedCapacityPhrasing checks text

/-- `capacityReason`. -/
def capacityReason (checks : FailureChecks) (text : List Char) : String :=
  if includesAny text ["usage limit", "session limit", "quota", "insufficient_quota"] then "provider_usage_limit"
  else if includesAny text ["overloaded", "capacity"] then "provider_overloaded"
  else if (rateLimitRe.search text).isSome || includesAny text ["too many requests", "resource has been exhausted"] ||
      includes checks.baseReasonCode.toList "rate_limit".toList then "provider_rate_limited"
  else if checks.baseReasonCode = "unknown" then "provider_capacity"
  else checks.baseReasonCode

/-- The category of an earlier check. -/
def EarlierCategory.category : EarlierCategory → ProviderFailureCategory
  | .capability => .capability
  | .credential => .credential
  | .configuration => .configuration
  | .deterministic_input => .deterministic_input

/-- `classifyProviderFailure`. -/
def classifyProviderFailure (env : RetryEnvironment) (checks : FailureChecks) (shape : ErrorShape) : ProviderFailureClassification :=
  let text := failureText env shape
  let retryAfterMs := (readRetryAfterMs env shape).or (parseResetsInDurationMs text)
  match checks.runtimeSessionProofReason shape text with
  | some reason => ⟨.runtime_transport, reason, none⟩
  | none =>
    match checks.managedSkills with
    | some (.state reason) => ⟨.configuration, "managed_skills_state_" ++ reason, retryAfterMs⟩
    | some .unsafeDiscovery => ⟨.transient_transport, "managed_skills_unsafe_discovery", none⟩
    | none =>
      if isBillingLimit text then ⟨.provider_capacity, "provider_billing_limit", retryAfterMs⟩
      else
        match checks.beforeCapacity shape text with
        | some (category, reasonCode) => ⟨EarlierCategory.category category, reasonCode, retryAfterMs⟩
        | none =>
          if isCapacity checks text retryAfterMs then ⟨.provider_capacity, capacityReason checks text, retryAfterMs⟩
          else
            match checks.transient text with
            | some reasonCode => ⟨.transient_transport, reasonCode, retryAfterMs⟩
            | none => ⟨.unknown, if checks.baseReasonCode = "" then "unknown" else checks.baseReasonCode, retryAfterMs⟩

/-! ## Decisions -/

/-- `isUnsafeReplay`. -/
def isUnsafeReplay (replaySafety : ReplaySafety) : Bool :=
  replaySafety == .user_visible || replaySafety == .unsafe_to_replay || replaySafety == .unknown

/-- `isRetryableUserVisibleFailure`. -/
def isRetryableUserVisibleFailure (category : ProviderFailureCategory) (replaySafety : ReplaySafety) : Bool :=
  replaySafety == .user_visible && (category == .provider_capacity || category == .transient_transport)

/-- `decideProviderTurnTransient`. -/
def decideProviderTurnTransient (reasonCode : String) (attempt : Nat) (replaySafety : ReplaySafety) : ProviderRetryDecision :=
  if attempt ≤ providerTurnMaxRetries then
    .retry reasonCode attempt (some providerTurnMaxRetries) (providerTurnDelaysMs[attempt - 1]?.getD 1500 :
      Nat) .foreground replaySafety .info
  else .stop (reasonCode ++ "_exhausted") .exhausted replaySafety .error

/-- `decideProviderTurnCapacity`. -/
def decideProviderTurnCapacity (reasonCode : String) (attempt : Nat) (retryAfterMs : Option Wait) (replaySafety : ReplaySafety) :
    ProviderRetryDecision :=
  if reasonCode = "provider_billing_limit" then .stop reasonCode .capacity_wait_required replaySafety .error
  else if replaySafety = .pre_provider then decideProviderTurnTransient reasonCode attempt replaySafety
  else
    match retryAfterMs with
    | none =>
      if reasonCode = "provider_overloaded" then
        if attempt ≤ providerTurnMaxRetries then
          .retry reasonCode attempt (some providerTurnMaxRetries) (providerTurnDelaysMs[attempt - 1]?.getD 1500 : Nat) .foreground
            replaySafety .warning
        else .stop (reasonCode ++ "_exhausted") .exhausted replaySafety .error
      else .stop "capacity_wait_required" .capacity_wait_required replaySafety .warning
    | some wait =>
      if wait ≤ (providerTurnCapacityShortWaitMs : Wait) then
        if attempt ≤ providerTurnMaxRetries then
          .retry reasonCode attempt (some providerTurnMaxRetries) wait .foreground replaySafety .warning
        else .stop (reasonCode ++ "_exhausted") .exhausted replaySafety .error
      else .stop "capacity_wait_required" .capacity_wait_required replaySafety .warning

/-- `decideSessionTransient`. Powers of two are exact until they are infinite, far above the cap. -/
def decideSessionTransient (reasonCode : String) (attempt : Nat) (replaySafety : ReplaySafety) : ProviderRetryDecision :=
  .retry reasonCode attempt none (min (1000 * 2 ^ (attempt - 1)) sessionTransientCapMs : Nat)
    (if attempt ≤ sessionForegroundRetries then .foreground else .background) replaySafety
    (if attempt ≤ sessionForegroundRetries then .info else .warning)

/-- `decideSessionCapacity`. -/
def decideSessionCapacity (reasonCode : String) (attempt : Nat) (retryAfterMs : Option Wait) (replaySafety : ReplaySafety) :
    ProviderRetryDecision :=
  .retry reasonCode attempt none (retryAfterMs.getD (min (1000 * 2 ^ (attempt - 1)) sessionCapacityCapMs : Nat))
    .background replaySafety .warning

/-- `decideUnknown`. -/
def decideUnknown (attempt : Nat) (replaySafety : ReplaySafety) : ProviderRetryDecision :=
  if attempt ≤ unknownMaxRetries then
    .retry "unknown" attempt (some unknownMaxRetries) (unknownDelaysMs[attempt - 1]?.getD 15000 :
      Nat) .foreground replaySafety .warning
  else .stop "unknown_exhausted" .exhausted replaySafety .error

/-- The number of an attempt: `Math.max(1, Math.floor(attempt))`. -/
def attemptOf (attempt : ℚ) : Nat := max 1 ⌊attempt⌋₊

/-- `decideProviderRetry`. -/
def decideProviderRetry (classification : ProviderFailureClassification) (scope : ProviderRetryScope) (attempt : ℚ)
    (retryAfterMs : Option Wait) (replaySafety : ReplaySafety) : ProviderRetryDecision :=
  let attempt := attemptOf attempt
  let retryAfterMs := retryAfterMs.or classification.retryAfterMs
  if classification.category = .runtime_transport then
    .stop classification.reasonCode .runtime_rebind_required replaySafety .warning
  else if scope = .provider_turn ∧ isUnsafeReplay replaySafety ∧
      (classification.reasonCode = "managed_skills_unsafe_discovery" ∨
        !isRetryableUserVisibleFailure classification.category replaySafety) then
    .stop "unsafe_replay" .unsafe_replay replaySafety .warning
  else
    match classification.category with
    | .runtime_transport => .stop classification.reasonCode .runtime_rebind_required replaySafety .warning
    | .credential | .capability | .configuration => .stop classification.reasonCode .needs_operator replaySafety .error
    | .deterministic_input => .stop classification.reasonCode .deterministic replaySafety .error
    | .unknown => decideUnknown attempt replaySafety
    | .transient_transport =>
      if scope = .provider_turn then decideProviderTurnTransient classification.reasonCode attempt replaySafety
      else decideSessionTransient classification.reasonCode attempt replaySafety
    | .provider_capacity =>
      if scope = .provider_turn then decideProviderTurnCapacity classification.reasonCode attempt retryAfterMs replaySafety
      else decideSessionCapacity classification.reasonCode attempt retryAfterMs replaySafety

end ProviderRetryPolicy

end FirstTree
