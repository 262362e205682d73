import FirstTree.Lib.Checks
import FirstTree.Lib.NextElements
import FirstTree.Server.CronSchedule

/-!
# Answers of a cron schedule

What lies behind an answer of each function of `schedule.ts` that is no error, and that the occurrence a schedule goes on with is
later than the instant it is asked for.
-/

namespace FirstTree

open NextElements CronSchedule

/-- Croner's `nextRun` never goes back. -/
def GoesOn (lib : CronLibrary) : Prop :=
  ∀ expression timezone nextRun, lib.nextRun expression timezone = .ok nextRun → ∀ at_ next, nextRun at_ = some next → at_ ≤ next

namespace CronScheduleAux

variable {lib : CronLibrary} {expression timezone : String}

/-- The search behind an answer of `firstOccurrenceStrictlyAfter`. -/
theorem firstOccurrenceStrictlyAfter_ok {after : Int} {result : Option Int}
    (h : firstOccurrenceStrictlyAfter lib expression timezone after = .ok result) :
    ∃ tz nextRun, normalizeIanaTimezone lib timezone = .ok tz ∧ buildCron lib (normalizeCronExpression expression) tz = .ok nextRun ∧
      result = search (proposeAfter nextRun) (matchesScheduledWallTime lib (normalizeCronExpression expression) tz) 400 after := by
  unfold firstOccurrenceStrictlyAfter at h
  cases htz : normalizeIanaTimezone lib timezone with
  | error message =>
    rw [htz] at h
    cases h
  | ok tz =>
    simp only [htz] at h
    cases hcron : buildCron lib (normalizeCronExpression expression) tz with
    | error message =>
      rw [hcron] at h
      cases h
    | ok nextRun =>
      rw [hcron] at h
      exact ⟨tz, nextRun, rfl, hcron, (Except.ok.inj h).symm⟩

/-- A preview that goes on has a first occurrence. -/
theorem previewLoop_succ_ok {schedule tz : String} {count : Nat} {cursor : Int} {occurrences : List Int}
    (h : previewLoop lib schedule tz (count + 1) cursor = .ok occurrences) :
    ∃ next rest, firstOccurrenceStrictlyAfter lib schedule tz cursor = .ok (some next) ∧
      previewLoop lib schedule tz count next = .ok rest ∧ occurrences = next :: rest := by
  rw [previewLoop] at h
  obtain ⟨result, hfirst, h⟩ := Checks.bind_eq_ok.mp h
  cases result with
  | none => cases h
  | some next =>
    obtain ⟨rest, hrest, h⟩ := Checks.bind_eq_ok.mp h
    exact ⟨next, rest, hfirst, hrest, (Except.ok.inj h).symm⟩

/-- The loop behind a preview. -/
theorem previewOccurrences_ok {after : Int} {count : Nat} {preview : Preview}
    (h : previewOccurrences lib expression timezone after count = .ok preview) :
    previewLoop lib preview.schedule preview.timezone count after = .ok preview.occurrences := by
  unfold previewOccurrences at h
  cases htz : normalizeIanaTimezone lib timezone with
  | error message =>
    rw [htz] at h
    cases h
  | ok tz =>
    simp only [htz] at h
    cases hloop : previewLoop lib (normalizeCronExpression expression) tz count after with
    | error e =>
      rw [hloop] at h
      cases h
    | ok occurrences =>
      rw [hloop] at h
      obtain rfl := Except.ok.inj h
      exact hloop

/-- What `assertSchedulable` accepts has a preview and a first occurrence. -/
theorem assertSchedulable_ok {after : Int} {scheduled : Schedulable}
    (h : assertSchedulable lib expression timezone after = .ok scheduled) :
    ∃ occurrences, previewOccurrences lib expression timezone after cronPreviewOccurrenceCount =
        .ok ⟨scheduled.schedule, scheduled.timezone, occurrences⟩ ∧
      firstOccurrenceStrictlyAfter lib scheduled.schedule scheduled.timezone after = .ok (some scheduled.nextRunAt) := by
  obtain ⟨preview, hpreview, h⟩ := Checks.bind_eq_ok.mp h
  obtain ⟨result, hfirst, h⟩ := Checks.bind_eq_ok.mp h
  cases result with
  | none => cases h
  | some next =>
    obtain rfl := Except.ok.inj h
    exact ⟨preview.occurrences, hpreview, hfirst⟩

/-- What Croner proposes is later than the cursor. -/
theorem lt_of_proposeAfter {nextRun : Int → Option Int} (hnext : ∀ at_ next, nextRun at_ = some next → at_ ≤ next) {cursor next : Int}
    (h : proposeAfter nextRun cursor = some next) : cursor < next := by
  unfold proposeAfter at h
  cases hfirst : nextRun cursor with
  | none =>
    rw [hfirst] at h
    cases h
  | some first =>
    simp only [hfirst] at h
    split at h
    · have := hnext _ _ h
      omega
    · next hlt =>
      obtain rfl := Option.some.inj h
      omega

/-- The first occurrence is later than the instant it is asked for. -/
theorem lt_of_firstOccurrence (hlib : GoesOn lib) {after next : Int}
    (h : firstOccurrenceStrictlyAfter lib expression timezone after = .ok (some next)) : after < next := by
  obtain ⟨tz, nextRun, _, hcron, hsearch⟩ := firstOccurrenceStrictlyAfter_ok h
  obtain ⟨tz', _, hrun⟩ := Checks.bind_eq_ok.mp hcron
  exact lt_of_search (fun a b hb => lt_of_proposeAfter (hlib _ _ _ hrun) hb) hsearch.symm

/-- A job that is accepted goes on later than the instant it is accepted. -/
theorem lt_of_assertSchedulable (hlib : GoesOn lib) {after : Int} {scheduled : Schedulable}
    (h : assertSchedulable lib expression timezone after = .ok scheduled) : after < scheduled.nextRunAt := by
  obtain ⟨_, _, hfirst⟩ := assertSchedulable_ok h
  exact lt_of_firstOccurrence hlib hfirst

end CronScheduleAux

end FirstTree
