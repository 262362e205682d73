import FirstTree.Client.ProviderRetryPolicy

/-!
# A stated wait is kept

The wait that an error states is the one its fields and its text denote, in exact arithmetic; a date states one while it is in the
future. A decision keeps it when it stops or retries no sooner. It does when the policy reads no less than what is stated; the
32-bit total of `resets in`, products of doubles that are rounded down, and a past date before a `resets in` read less, and then
only a turn that is not retried keeps the wait. A past date that is the only word on a wait makes the delays of a session zero.
-/

namespace FirstTree

open ProviderRetryPolicy Binary64

/-- The milliseconds of the hours, minutes and seconds of a text, in exact arithmetic. -/
def resetsTotalMs : List Char × List Char × List Char → Nat
  | (hours, minutes, seconds) => (digitsValue hours * 3600 + digitsValue minutes * 60 + digitsValue seconds) * 1000

/-- The wait that `retryAfter` of an error states, in exact arithmetic: a number of seconds, or a date in the future. -/
def statedRetryAfter (env : RetryEnvironment) : Option RetryAfter → Option Nat
  | some (.number (.finite x)) => if 0 ≤ x then some ⌊x * 1000⌋₊ else none
  | some (.number .nonFinite) => none
  | some (.text t) =>
    match secondsOf t with
    | some (q, _) => some ⌊q * 1000⌋₊
    | none => (env.dateParse t).bind fun dateMs => if env.now < dateMs then some (dateMs - env.now).toNat else none
  | none => none

/-- The wait that the fields of an error state, in exact arithmetic. -/
def statedFields (env : RetryEnvironment) (shape : ErrorShape) : Option Nat :=
  match shape.retryAfterMs with
  | some (.finite v) => if 0 ≤ v then some ⌊v⌋₊ else statedRetryAfter env shape.retryAfter
  | _ => statedRetryAfter env shape.retryAfter

/-- The wait that an error states, in exact arithmetic. -/
def statedWait (env : RetryEnvironment) (shape : ErrorShape) : Option Nat :=
  (statedFields env shape).or ((resetsIn (failureText env shape)).map resetsTotalMs)

/-- `retryAfter` of an error is a date that is not in the future. -/
def IsPastDate (env : RetryEnvironment) : Option RetryAfter → Prop
  | some (.text t) => secondsOf t = none ∧ ∃ dateMs, env.dateParse t = some dateMs ∧ dateMs ≤ env.now
  | _ => False

/-- What an error says of a wait in its fields is a date that is not in the future. -/
def PastDate (env : RetryEnvironment) (shape : ErrorShape) : Prop :=
  (∀ v, shape.retryAfterMs = some (.finite v) → v < 0) ∧ IsPastDate env shape.retryAfter

/-- The delay of a decision that retries. -/
def delayOf : ProviderRetryDecision → Option Wait
  | .retry _ _ _ delayMs _ _ _ => some delayMs
  | .stop _ _ _ _ => none

/-- A decision does not cut a wait short. -/
def WaitKept (wait : Nat) (decision : ProviderRetryDecision) : Prop :=
  ∀ delayMs, delayOf decision = some delayMs → (wait : Wait) ≤ delayMs

/-- Seconds that are multiplied without loss. -/
def ReadsSeconds (q x : ℚ) : Prop := ((⌊q * 1000⌋₊ : Nat) : Wait) ≤ floorMs (times 1000 (some x))

/-- `retryAfter` of an error is read without loss. -/
def ReadsRetryAfter : Option RetryAfter → Prop
  | some (.number (.finite x)) => ReadsSeconds x x
  | some (.text t) => ∀ q x, secondsOf t = some (q, x) → ReadsSeconds q x
  | _ => True

/-- The wait of an error is read without loss: seconds are not rounded down, and a total of `resets in` is zero, or is below `2 ^
31` and not behind a past date. -/
def ReadsWhole (env : RetryEnvironment) (shape : ErrorShape) : Prop :=
  ((∀ v, shape.retryAfterMs = some (.finite v) → v < 0) → ReadsRetryAfter shape.retryAfter) ∧
    (statedFields env shape = none → ∀ parts, resetsIn (failureText env shape) = some parts →
      resetsTotalMs parts = 0 ∨ (resetsTotalMs parts < 2 ^ 31 ∧ ¬ PastDate env shape))

/-- A turn that a classification lets try again. -/
def RetriesTurn (classification : ProviderFailureClassification) (attempt : ℚ) (replaySafety : ReplaySafety) : Prop :=
  attemptOf attempt ≤ providerTurnMaxRetries ∧
    (isUnsafeReplay replaySafety = false ∨
      (replaySafety = .user_visible ∧ classification.reasonCode ≠ "managed_skills_unsafe_discovery")) ∧
    classification.reasonCode ≠ "provider_billing_limit" ∧
    ((classification.retryAfterMs = none ∧ classification.reasonCode = "provider_overloaded") ∨
      ∃ wait, classification.retryAfterMs = some wait ∧ wait ≤ (providerTurnCapacityShortWaitMs : Wait))

/-- The cap of the delays of a session without a stated wait. -/
def sessionCapMs : ProviderFailureCategory → Nat
  | .provider_capacity => sessionCapacityCapMs
  | .transient_transport => sessionTransientCapMs
  | _ => 15000

/-- The delays of a failure are positive and under their cap, and do not decrease with the attempt. -/
def DelaysGrow (c : ProviderFailureClassification) (scope : ProviderRetryScope) (replaySafety : ReplaySafety) : Prop :=
  ∀ (a b : ℚ) (delayA delayB : Wait), a ≤ b → delayOf (decideProviderRetry c scope a none replaySafety) = some delayA →
    delayOf (decideProviderRetry c scope b none replaySafety) = some delayB →
    0 < delayA ∧ delayA ≤ (sessionCapMs c.category : Wait) ∧ delayA ≤ delayB

namespace ProviderRetryPolicyAux

/-! ## What is read -/

/-- Some milliseconds are below a 32-bit total that they reach. -/
theorem total_exact {hours minutes seconds : List Char} (h : resetsTotalMs (hours, minutes, seconds) < 2 ^ 31) :
    toInt32 (times 1000 (plus (plus (times 3600 (digitsNumber hours)) (times 60 (digitsNumber minutes))) (digitsNumber seconds))) =
      resetsTotalMs (hours, minutes, seconds) := by
  simp only [resetsTotalMs] at h
  have hhours : digitsNumber hours = some (digitsValue hours : ℚ) := round_natCast (by omega)
  have hminutes : digitsNumber minutes = some (digitsValue minutes : ℚ) := round_natCast (by omega)
  have hseconds : digitsNumber seconds = some (digitsValue seconds : ℚ) := round_natCast (by omega)
  have htimesHours : times 3600 (some (digitsValue hours : ℚ)) = some ((digitsValue hours * 3600 : Nat) : ℚ) :=
    times_natCast (c := 3600) (by omega)
  have htimesMinutes : times 60 (some (digitsValue minutes : ℚ)) = some ((digitsValue minutes * 60 : Nat) : ℚ) :=
    times_natCast (c := 60) (by omega)
  have htimes : times 1000 (some ((digitsValue hours * 3600 + digitsValue minutes * 60 + digitsValue seconds : Nat) : ℚ)) =
      some ((resetsTotalMs (hours, minutes, seconds) : Nat) : ℚ) := times_natCast (c := 1000) (by omega)
  rw [hhours, hminutes, hseconds, htimesHours, htimesMinutes, plus_natCast (by omega), plus_natCast (by omega), htimes]
  exact toInt32_natCast h

/-- A total below `2 ^ 31` is read, but for zero. -/
theorem parseResets_exact {text : List Char} {parts : List Char × List Char × List Char} (hparts : resetsIn text = some parts)
    (h : resetsTotalMs parts < 2 ^ 31) :
    (∃ r, parseResetsInDurationMs text = some r ∧ (resetsTotalMs parts : Wait) ≤ r) ∨ resetsTotalMs parts = 0 := by
  obtain ⟨hours, minutes, seconds⟩ := parts
  simp only [parseResetsInDurationMs, hparts, total_exact h]
  rcases Nat.eq_zero_or_pos (resetsTotalMs (hours, minutes, seconds)) with hzero | hpos
  · exact .inr hzero
  · left
    rw [if_pos (by exact_mod_cast hpos)]
    exact ⟨_, rfl, by simp⟩

/-- What is read of a total is below `2 ^ 31`. -/
theorem parseResets_lt {text : List Char} {r : Wait} (h : parseResetsInDurationMs text = some r) : r < ((2 ^ 31 : Nat) : Wait) := by
  unfold parseResetsInDurationMs at h
  split at h
  · simp at h
  · rename_i hours minutes seconds _
    have hlt := toInt32_lt
      (times 1000 (plus (plus (times 3600 (digitsNumber hours)) (times 60 (digitsNumber minutes))) (digitsNumber seconds)))
    simp only at h
    split at h
    · rw [← Option.some.inj h]
      exact_mod_cast (by omega : _ < 2 ^ 31)
    · simp at h

/-- When `retryAfter` states no wait, a past date is read as none to wait for, and nothing else is read. -/
theorem retryAfter_unstated {env : RetryEnvironment} {retryAfter : Option RetryAfter} (h : statedRetryAfter env retryAfter = none) :
    (IsPastDate env retryAfter ∧ readRetryAfterMs.readRetryAfter env retryAfter = some 0) ∨
      (¬ IsPastDate env retryAfter ∧ readRetryAfterMs.readRetryAfter env retryAfter = none) := by
  cases retryAfter with
  | none => exact .inr ⟨id, rfl⟩
  | some value =>
    cases value with
    | number x =>
      refine .inr ⟨id, ?_⟩
      cases x with
      | nonFinite => rfl
      | finite x => simpa [statedRetryAfter, readRetryAfterMs.readRetryAfter] using h
    | text t =>
      simp only [statedRetryAfter] at h
      simp only [IsPastDate, readRetryAfterMs.readRetryAfter, readRetryAfterText]
      cases hseconds : secondsOf t with
      | some pair => simp [hseconds] at h
      | none =>
        cases hdate : env.dateParse t with
        | none => simp
        | some dateMs =>
          have hpast : dateMs ≤ env.now := by simpa [hseconds, hdate] using h
          refine .inl ⟨⟨rfl, dateMs, rfl, hpast⟩, ?_⟩
          simp [Int.toNat_of_nonpos (by omega : dateMs - env.now ≤ 0)]

/-- What `retryAfter` states is read, without loss or with some. -/
theorem retryAfter_read {env : RetryEnvironment} {retryAfter : Option RetryAfter} {wait : Nat}
    (h : statedRetryAfter env retryAfter = some wait) :
    ∃ r, readRetryAfterMs.readRetryAfter env retryAfter = some r ∧ ((wait : Wait) ≤ r ↔ ReadsRetryAfter retryAfter) := by
  cases retryAfter with
  | none => simp [statedRetryAfter] at h
  | some value =>
    cases value with
    | number x =>
      cases x with
      | nonFinite => simp [statedRetryAfter] at h
      | finite x =>
        simp only [statedRetryAfter] at h
        split at h
        · rename_i hx
          refine ⟨_, if_pos hx, ?_⟩
          rw [← Option.some.inj h]
          exact Iff.rfl
        · exact absurd h (by simp)
    | text t =>
      simp only [statedRetryAfter] at h
      simp only [readRetryAfterMs.readRetryAfter, readRetryAfterText, ReadsRetryAfter]
      cases hseconds : secondsOf t with
      | none =>
        simp only [hseconds, Option.bind_eq_some_iff] at h
        obtain ⟨dateMs, hdate, h⟩ := h
        split at h
        · rw [← Option.some.inj h, hdate]
          exact ⟨_, rfl, by simp⟩
        · exact absurd h (by simp)
      | some pair =>
        obtain ⟨q, x⟩ := pair
        simp only [hseconds, Option.some.injEq] at h
        refine ⟨_, rfl, ?_⟩
        rw [← h]
        constructor
        · rintro hle _ _ ⟨⟩
          exact hle
        · exact fun hall => hall q x rfl

/-- When the fields state no wait, a past date is read as none to wait for, and nothing else is read. -/
theorem fields_unstated {env : RetryEnvironment} {shape : ErrorShape} (h : statedFields env shape = none) :
    (PastDate env shape ∧ readRetryAfterMs env shape = some 0) ∨ (¬ PastDate env shape ∧ readRetryAfterMs env shape = none) := by
  unfold statedFields at h
  unfold PastDate readRetryAfterMs
  cases hms : shape.retryAfterMs with
  | none =>
    have hstated : statedRetryAfter env shape.retryAfter = none := by simpa [hms] using h
    simpa [hms] using retryAfter_unstated hstated
  | some value =>
    cases value with
    | nonFinite =>
      have hstated : statedRetryAfter env shape.retryAfter = none := by simpa [hms] using h
      simpa [hms] using retryAfter_unstated hstated
    | finite v =>
      simp only [hms] at h
      split at h
      · exact absurd h (by simp)
      · rename_i hv
        simpa [hv, not_le.1 hv] using retryAfter_unstated h

/-- What the fields state is read, without loss or with some. -/
theorem fields_read {env : RetryEnvironment} {shape : ErrorShape} {wait : Nat} (h : statedFields env shape = some wait) :
    ∃ r, readRetryAfterMs env shape = some r ∧
      ((wait : Wait) ≤ r ↔ ((∀ v, shape.retryAfterMs = some (.finite v) → v < 0) → ReadsRetryAfter shape.retryAfter)) := by
  unfold statedFields at h
  unfold readRetryAfterMs
  cases hms : shape.retryAfterMs with
  | none =>
    have hstated : statedRetryAfter env shape.retryAfter = some wait := by simpa [hms] using h
    simpa using retryAfter_read hstated
  | some value =>
    cases value with
    | nonFinite =>
      have hstated : statedRetryAfter env shape.retryAfter = some wait := by simpa [hms] using h
      simpa using retryAfter_read hstated
    | finite v =>
      simp only [hms] at h
      split at h
      · rename_i hv
        refine ⟨_, if_pos hv, ?_⟩
        rw [← Option.some.inj h]
        refine ⟨fun _ hneg => ?_, fun _ => le_refl _⟩
        exact absurd (hneg v rfl) (not_lt.2 hv)
      · rename_i hv
        obtain ⟨r, hr, hiff⟩ := retryAfter_read h
        refine ⟨r, (if_neg hv).trans hr, hiff.trans ⟨fun hreads _ => hreads, fun hreads => hreads ?_⟩⟩
        rintro _ ⟨⟩
        exact not_le.1 hv

/-- Fields that state no wait lose none. -/
theorem readsRetryAfter_of_none {env : RetryEnvironment} {shape : ErrorShape}
    (hneg : ∀ v, shape.retryAfterMs = some (.finite v) → v < 0) (h : statedFields env shape = none) :
    ReadsRetryAfter shape.retryAfter := by
  have hstated : statedRetryAfter env shape.retryAfter = none := by
    unfold statedFields at h
    split at h
    · rename_i v hms
      rwa [if_neg (not_le.2 (hneg v hms))] at h
    · exact h
  unfold statedRetryAfter at hstated
  unfold ReadsRetryAfter
  split
  · rename_i x hx
    simp only [hx, ite_eq_right_iff, reduceCtorEq, imp_false, not_le] at hstated
    have hzero : ⌊x * 1000⌋₊ = 0 := Nat.floor_of_nonpos (by linarith)
    rw [ReadsSeconds, hzero]
    exact zero_le
  · rename_i t ht
    intro q x hseconds
    simp [ht, hseconds] at hstated
  · trivial

/-- What the policy reads of an error. -/
def readWait (env : RetryEnvironment) (shape : ErrorShape) : Option Wait :=
  (readRetryAfterMs env shape).or (parseResetsInDurationMs (failureText env shape))

/-- A wait that is read without loss is not read too short. -/
theorem readWait_of_readsWhole {env : RetryEnvironment} {shape : ErrorShape} {wait : Nat} (hstated : statedWait env shape = some wait)
    (h : ReadsWhole env shape) : (∃ r, readWait env shape = some r ∧ (wait : Wait) ≤ r) ∨ wait = 0 := by
  unfold statedWait at hstated
  unfold readWait
  cases hfields : statedFields env shape with
  | some w =>
    rw [hfields, Option.some_or] at hstated
    obtain ⟨r, hr, hiff⟩ := fields_read hfields
    rw [hr]
    exact .inl ⟨r, rfl, Option.some.inj hstated ▸ hiff.2 h.1⟩
  | none =>
    rw [hfields, Option.none_or] at hstated
    obtain ⟨parts, hparts, rfl⟩ := Option.map_eq_some_iff.1 hstated
    rcases h.2 hfields parts hparts with hzero | ⟨hshort, hdate⟩
    · exact .inr hzero
    · rcases fields_unstated hfields with ⟨hpast, _⟩ | ⟨_, hread⟩
      · exact absurd hpast hdate
      · rw [hread, Option.none_or]
        exact parseResets_exact hparts hshort

/-- A wait that is read with loss is read too short, or not at all when it is long. -/
theorem readWait_of_not_readsWhole {env : RetryEnvironment} {shape : ErrorShape} {wait : Nat}
    (hstated : statedWait env shape = some wait) (h : ¬ ReadsWhole env shape) :
    (∃ r, readWait env shape = some r ∧ r < (wait : Wait)) ∨ readWait env shape = none ∧ 2 ^ 31 ≤ wait := by
  unfold statedWait at hstated
  unfold readWait
  cases hfields : statedFields env shape with
  | some w =>
    rw [hfields, Option.some_or] at hstated
    obtain ⟨r, hr, hiff⟩ := fields_read hfields
    rw [hr]
    refine .inl ⟨r, rfl, not_le.1 fun hle => h ⟨hiff.1 ?_, by simp [hfields]⟩⟩
    rwa [Option.some.inj hstated]
  | none =>
    rw [hfields, Option.none_or] at hstated
    obtain ⟨parts, hparts, rfl⟩ := Option.map_eq_some_iff.1 hstated
    have hloss : resetsTotalMs parts ≠ 0 ∧ (resetsTotalMs parts < 2 ^ 31 → PastDate env shape) := by
      by_contra hno
      refine h ⟨fun hneg => ?_, fun _ parts' hparts' => ?_⟩
      · -- Fields that state nothing lose nothing.
        exact readsRetryAfter_of_none hneg hfields
      · rw [hparts] at hparts'
        rw [← Option.some.inj hparts']
        tauto
    rcases fields_unstated hfields with ⟨_, hread⟩ | ⟨hdate, hread⟩
    · rw [hread, Option.some_or]
      exact .inl ⟨0, rfl, by exact_mod_cast Nat.pos_of_ne_zero hloss.1⟩
    · have hlong : 2 ^ 31 ≤ resetsTotalMs parts := not_lt.1 fun hlt => hdate (hloss.2 hlt)
      rw [hread, Option.none_or]
      cases hread' : parseResetsInDurationMs (failureText env shape) with
      | none => exact .inr ⟨rfl, hlong⟩
      | some r => exact .inl ⟨r, rfl, lt_of_lt_of_le (parseResets_lt hread') (by exact_mod_cast hlong)⟩

/-- An error that states no wait is read as none to wait for when it has a past date, and else nothing is read. -/
theorem readWait_unstated {env : RetryEnvironment} {shape : ErrorShape} (h : statedWait env shape = none) :
    (PastDate env shape ∧ readWait env shape = some 0) ∨ (¬ PastDate env shape ∧ readWait env shape = none) := by
  obtain ⟨hfields, hresets⟩ := Option.or_eq_none_iff.1 h
  have hparse : parseResetsInDurationMs (failureText env shape) = none := by
    simp [parseResetsInDurationMs, Option.map_eq_none_iff.1 hresets]
  unfold readWait
  rcases fields_unstated hfields with ⟨hpast, hread⟩ | ⟨hdate, hread⟩
  · exact .inl ⟨hpast, by rw [hread, Option.some_or]⟩
  · exact .inr ⟨hdate, by rw [hread, hparse, Option.or_none]⟩

/-- A capacity failure carries what the policy reads of the error. -/
theorem classification_retryAfterMs {env : RetryEnvironment} {checks : FailureChecks} {shape : ErrorShape}
    (h : (classifyProviderFailure env checks shape).category = .provider_capacity) :
    (classifyProviderFailure env checks shape).retryAfterMs = readWait env shape := by
  unfold classifyProviderFailure at h ⊢
  simp only at h ⊢
  split
  · rename_i reason hproof
    simp [hproof] at h
  · rename_i hproof
    simp only [hproof] at h
    split
    · rename_i reason hskills
      simp [hskills] at h
    · rename_i hskills
      simp [hskills] at h
    · rename_i hskills
      split
      · rfl
      · split
        · rfl
        · split
          · rfl
          · split <;> rfl

/-! ## Decisions -/

/-- A session whose failure is of capacity waits as long as was read, or backs off. -/
theorem delayOf_session {c : ProviderFailureClassification} {scope : ProviderRetryScope} (attempt : ℚ) (replaySafety : ReplaySafety)
    (hcategory : c.category = .provider_capacity) (hscope : scope ≠ .provider_turn) :
    delayOf (decideProviderRetry c scope attempt none replaySafety) =
      some (c.retryAfterMs.getD (min (1000 * 2 ^ (attemptOf attempt - 1)) sessionCapacityCapMs : Nat)) := by
  simp [decideProviderRetry, hcategory, hscope, decideSessionCapacity, delayOf]

/-- The short delays of a turn. -/
theorem turnDelay_le (attempt : Nat) : providerTurnDelaysMs[attempt]?.getD 1500 ≤ 1500 := by
  match attempt with
  | 0 | 1 => decide
  | n + 2 => exact le_refl 1500

/-- The decision on a turn whose failure is of capacity, past the check of its replay safety. -/
theorem decide_turn {c : ProviderFailureClassification} (attempt : ℚ) {replaySafety : ReplaySafety}
    (hcategory : c.category = .provider_capacity)
    (hsafe : isUnsafeReplay replaySafety = false ∨
      (replaySafety = .user_visible ∧ c.reasonCode ≠ "managed_skills_unsafe_discovery")) :
    decideProviderRetry c .provider_turn attempt none replaySafety =
      decideProviderTurnCapacity c.reasonCode (attemptOf attempt) c.retryAfterMs replaySafety := by
  rcases hsafe with hsafe | ⟨rfl, hreason⟩
  · simp [decideProviderRetry, hcategory, hsafe]
  · simp [decideProviderRetry, hcategory, hreason, isRetryableUserVisibleFailure]

/-- A turn whose failure is of capacity is tried again after what was read, or shortly when nothing was. -/
theorem delayOf_turn {c : ProviderFailureClassification} {attempt : ℚ} {replaySafety : ReplaySafety}
    (hcategory : c.category = .provider_capacity) (hpre : replaySafety ≠ .pre_provider) (h : RetriesTurn c attempt replaySafety) :
    ∃ delayMs, delayOf (decideProviderRetry c .provider_turn attempt none replaySafety) = some delayMs ∧
      (∀ r, c.retryAfterMs = some r → delayMs = r) ∧ (c.retryAfterMs = none → delayMs ≤ ((1500 : Nat) : Wait)) := by
  obtain ⟨hattempt, hsafe, hbilling, hwait⟩ := h
  rw [decide_turn attempt hcategory hsafe]
  unfold decideProviderTurnCapacity
  rw [if_neg hbilling, if_neg hpre]
  rcases hwait with ⟨hnone, hreason⟩ | ⟨wait, hsome, hshort⟩
  · simp only [hnone, if_pos hreason, if_pos hattempt]
    exact ⟨_, rfl, by simp, fun _ => by exact_mod_cast turnDelay_le _⟩
  · simp only [hsome, if_pos hshort, if_pos hattempt]
    exact ⟨_, rfl, by simp, by simp⟩

/-- Any other turn whose failure is of capacity is not tried again. -/
theorem delayOf_turn_none {c : ProviderFailureClassification} {attempt : ℚ} {replaySafety : ReplaySafety}
    (hcategory : c.category = .provider_capacity) (hpre : replaySafety ≠ .pre_provider) (h : ¬ RetriesTurn c attempt replaySafety) :
    delayOf (decideProviderRetry c .provider_turn attempt none replaySafety) = none := by
  by_cases hsafe : isUnsafeReplay replaySafety = false ∨
      (replaySafety = .user_visible ∧ c.reasonCode ≠ "managed_skills_unsafe_discovery")
  · rw [decide_turn attempt hcategory hsafe]
    unfold decideProviderTurnCapacity
    rw [if_neg hpre]
    split
    · rfl
    · rename_i hbilling
      split
      · rename_i hread
        split
        · rename_i hreason
          split
          · rename_i hattempt
            exact absurd ⟨hattempt, hsafe, hbilling, .inl ⟨hread, hreason⟩⟩ h
          · rfl
        · rfl
      · rename_i wait hread
        split
        · rename_i hshort
          split
          · rename_i hattempt
            exact absurd ⟨hattempt, hsafe, hbilling, .inr ⟨wait, hread, hshort⟩⟩ h
          · rfl
        · rfl
  · have hunsafe : isUnsafeReplay replaySafety = true := by simpa using fun hfalse => hsafe (.inl hfalse)
    have hstop : c.reasonCode = "managed_skills_unsafe_discovery" ∨
        (!isRetryableUserVisibleFailure c.category replaySafety) = true := by
      by_cases hvisible : replaySafety = .user_visible
      · exact .inl (by_contra fun hreason => hsafe (.inr ⟨hvisible, hreason⟩))
      · exact .inr (by simp [isRetryableUserVisibleFailure, hvisible])
    rw [decideProviderRetry, if_neg (by simp [hcategory]), if_pos ⟨rfl, hunsafe, hstop⟩]
    rfl

/-- A decision that waits as long as was read keeps a wait that was not read too short. -/
theorem waitKept_of_read {c : ProviderFailureClassification} {scope : ProviderRetryScope} {attempt : ℚ} {replaySafety : ReplaySafety}
    {wait : Nat} (hcategory : c.category = .provider_capacity) (hpre : scope = .provider_turn → replaySafety ≠ .pre_provider)
    (h : (∃ r, c.retryAfterMs = some r ∧ (wait : Wait) ≤ r) ∨ wait = 0) :
    WaitKept wait (decideProviderRetry c scope attempt none replaySafety) := by
  intro delayMs hdelay
  rcases h with ⟨r, hr, hle⟩ | rfl
  · by_cases hscope : scope = .provider_turn
    · subst hscope
      by_cases hretries : RetriesTurn c attempt replaySafety
      · obtain ⟨delayMs', hdelay', hread, _⟩ := delayOf_turn hcategory (hpre rfl) hretries
        rw [hdelay] at hdelay'
        rw [Option.some.inj hdelay', hread r hr]
        exact hle
      · rw [delayOf_turn_none hcategory (hpre rfl) hretries] at hdelay
        simp at hdelay
    · rw [delayOf_session attempt replaySafety hcategory hscope, hr] at hdelay
      exact Option.some.inj hdelay ▸ hle
  · exact zero_le

/-- A wait that was read too short is kept by a turn that is not tried again, and by nothing else. -/
theorem waitKept_of_short {c : ProviderFailureClassification} {scope : ProviderRetryScope} {attempt : ℚ} {replaySafety : ReplaySafety}
    {wait : Nat} (hcategory : c.category = .provider_capacity) (hpre : scope = .provider_turn → replaySafety ≠ .pre_provider)
    (h : (∃ r, c.retryAfterMs = some r ∧ r < (wait : Wait)) ∨ c.retryAfterMs = none ∧ 2 ^ 31 ≤ wait) :
    WaitKept wait (decideProviderRetry c scope attempt none replaySafety) ↔
      scope = .provider_turn ∧ ¬ RetriesTurn c attempt replaySafety := by
  by_cases hscope : scope = .provider_turn
  · subst hscope
    by_cases hretries : RetriesTurn c attempt replaySafety
    · refine ⟨fun hkept => ?_, fun hnot => absurd hretries hnot.2⟩
      obtain ⟨delayMs, hdelay, hread, hshort⟩ := delayOf_turn hcategory (hpre rfl) hretries
      have hle := hkept delayMs hdelay
      rcases h with ⟨r, hr, hlt⟩ | ⟨hnone, hlong⟩
      · rw [hread r hr] at hle
        exact absurd hlt (not_lt.2 hle)
      · have hle' : wait ≤ 1500 := by exact_mod_cast hle.trans (hshort hnone)
        omega
    · refine ⟨fun _ => ⟨rfl, hretries⟩, fun _ delayMs hdelay => ?_⟩
      rw [delayOf_turn_none hcategory (hpre rfl) hretries] at hdelay
      simp at hdelay
  · refine ⟨fun hkept => ?_, fun hturn => absurd hturn.1 hscope⟩
    have hle := hkept _ (delayOf_session attempt replaySafety hcategory hscope)
    rcases h with ⟨r, hr, hlt⟩ | ⟨hnone, hlong⟩
    · rw [hr, Option.getD_some] at hle
      exact absurd hlt (not_lt.2 hle)
    · rw [hnone, Option.getD_none] at hle
      have hle' : wait ≤ min (1000 * 2 ^ (attemptOf attempt - 1)) sessionCapacityCapMs := by exact_mod_cast hle
      have hcap := hle'.trans (min_le_right _ _)
      simp only [sessionCapacityCapMs] at hcap
      omega

/-! ## Delays without a stated wait -/

/-- The number of an attempt does not decrease. -/
theorem attemptOf_mono {a b : ℚ} (h : a ≤ b) : attemptOf a ≤ attemptOf b := max_le_max (le_refl 1) (Nat.floor_mono h)

/-- Powers of two under a cap are positive. -/
theorem backoff_pos {attempt cap : Nat} (hcap : 0 < cap) : 0 < min (1000 * 2 ^ (attempt - 1)) cap := by
  have : 0 < 1000 * 2 ^ (attempt - 1) := by positivity
  omega

/-- Powers of two under a cap do not decrease. -/
theorem backoff_mono {a b : Nat} (cap : Nat) (h : a ≤ b) : min (1000 * 2 ^ (a - 1)) cap ≤ min (1000 * 2 ^ (b - 1)) cap :=
  min_le_min_right cap (Nat.mul_le_mul_left 1000 (Nat.pow_le_pow_right (by decide) (by omega)))

/-- The delay of a session without a stated wait. -/
def sessionDelayMs (category : ProviderFailureCategory) (attempt : Nat) : Nat :=
  if category = .unknown then unknownDelaysMs[attempt - 1]?.getD 15000 else min (1000 * 2 ^ (attempt - 1)) (sessionCapMs category)

/-- A session without a stated wait is tried again after that delay, or not at all. -/
theorem delayOf_session_unstated {c : ProviderFailureClassification} {scope : ProviderRetryScope} {attempt : ℚ}
    {replaySafety : ReplaySafety} {delayMs : Wait} (hscope : scope ≠ .provider_turn)
    (hunstated : c.category = .provider_capacity → c.retryAfterMs = none)
    (h : delayOf (decideProviderRetry c scope attempt none replaySafety) = some delayMs) :
    delayMs = (sessionDelayMs c.category (attemptOf attempt) : Nat) := by
  cases hcategory : c.category with
  | unknown =>
    simp only [decideProviderRetry, hcategory, hscope, decideUnknown] at h
    split at h
    · simp [delayOf] at h
    · split at h
      · simp [delayOf] at h
      · split at h
        · exact (Option.some.inj h).symm
        · simp [delayOf] at h
  | provider_capacity =>
    rw [delayOf_session attempt replaySafety hcategory hscope, hunstated hcategory] at h
    exact (Option.some.inj h).symm
  | transient_transport =>
    simp [decideProviderRetry, hcategory, hscope, decideSessionTransient, delayOf] at h
    exact h.symm
  | _ => simp [decideProviderRetry, hcategory, hscope, delayOf] at h

/-- The delays of a failure without a category are positive, under the cap, and do not decrease. -/
theorem unknownDelay_spec (a b : Nat) (h : a ≤ b) :
    0 < unknownDelaysMs[a]?.getD 15000 ∧ unknownDelaysMs[a]?.getD 15000 ≤ 15000 ∧
      unknownDelaysMs[a]?.getD 15000 ≤ unknownDelaysMs[b]?.getD 15000 := by
  match a, b with
  | 0, 0 | 0, 1 | 1, 1 => decide
  | 0, n + 2 | 1, n + 2 => exact ⟨by decide, by decide, by simp [unknownDelaysMs]⟩
  | m + 2, n + 2 => simp [unknownDelaysMs]

/-- The delays of a session without a stated wait are positive, under the cap, and do not decrease. -/
theorem sessionDelay_spec (category : ProviderFailureCategory) {a b : Nat} (h : a ≤ b) :
    0 < sessionDelayMs category a ∧ sessionDelayMs category a ≤ sessionCapMs category ∧
      sessionDelayMs category a ≤ sessionDelayMs category b := by
  unfold sessionDelayMs
  split
  · rename_i hunknown
    rw [hunknown]
    exact unknownDelay_spec (a - 1) (b - 1) (by omega)
  · refine ⟨backoff_pos ?_, min_le_right _ _, backoff_mono _ h⟩
    cases category <;> decide

/-- The delays of a session whose failure carries no wait grow. -/
theorem delaysGrow_of_unstated {c : ProviderFailureClassification} {scope : ProviderRetryScope} (hscope : scope ≠ .provider_turn)
    (hunstated : c.category = .provider_capacity → c.retryAfterMs = none) (replaySafety : ReplaySafety) :
    DelaysGrow c scope replaySafety := by
  intro a b delayA delayB hle ha hb
  obtain ⟨hpos, hcap, hmono⟩ := sessionDelay_spec c.category (attemptOf_mono hle)
  rw [delayOf_session_unstated hscope hunstated ha, delayOf_session_unstated hscope hunstated hb]
  exact ⟨by exact_mod_cast hpos, by exact_mod_cast hcap, by exact_mod_cast hmono⟩

end ProviderRetryPolicyAux

open ProviderRetryPolicyAux

/-- An environment whose case mapping is that of ASCII and that parses no dates. -/
def plainEnvironment : RetryEnvironment := ⟨fun t => t.map Char.toLower, fun _ => none, 0⟩

/-- Checks that lead nowhere but to capacity. -/
def plainChecks : FailureChecks := ⟨"unknown", false, fun _ _ => none, none, fun _ _ => none, fun _ => none⟩

/-- An error that states a wait of 600 hours. -/
def resetsIn600h : ErrorShape := ⟨none, some "Usage limit reached. Resets in 600h".toList, none, none, none, none⟩

end FirstTree
