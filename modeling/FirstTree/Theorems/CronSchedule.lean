import FirstTree.Lib.NextElements
import FirstTree.Lemmas.CronSchedule
import FirstTree.Server.CronSchedule

/-!
# The occurrences of a cron schedule

The occurrence a schedule goes on with is the next instant at which Croner fires and the clock of the time zone shows the hour and the
minute of the expression; a preview lists the first such instants in order, with none left out.
-/

namespace FirstTree

open NextElements CronSchedule

/-- Croner fires at these instants for a schedule: `nextRun` never goes back, answers one of them, and passes over none after the
cursor that the clock of the time zone confirms; when it answers the cursor itself, the next millisecond is none of them. -/
def FiresAt (lib : CronLibrary) (fires : Int → Prop) (expression timezone : String) : Prop :=
  ∀ tz nextRun, normalizeIanaTimezone lib timezone = .ok tz → buildCron lib (normalizeCronExpression expression) tz = .ok nextRun →
    (∀ at_ next, nextRun at_ = some next → fires next ∧ at_ ≤ next) ∧
      (∀ at_ c, fires c → matchesScheduledWallTime lib (normalizeCronExpression expression) tz c = true → at_ < c →
        ∃ next, nextRun at_ = some next ∧ next ≤ c) ∧
      ∀ at_, nextRun at_ = some at_ → ¬ fires (at_ + 1)

/-- The occurrences of a schedule: Croner fires, and the clock of the time zone shows the hour and the minute of the expression. -/
def OccursAt (lib : CronLibrary) (fires : Int → Prop) (expression timezone : String) (at_ : Int) : Prop :=
  ∃ tz, normalizeIanaTimezone lib timezone = .ok tz ∧
    fires at_ ∧ matchesScheduledWallTime lib (normalizeCronExpression expression) tz at_ = true

namespace CronScheduleAux

variable {lib : CronLibrary} {fires : Int → Prop} {expression timezone : String}

/-- What Croner proposes after a cursor, asked again or not, passes over no instant that is to be kept. -/
theorem passesNone_proposeAfter {keep : Int → Bool} {nextRun : Int → Option Int}
    (hanswers : ∀ at_ next, nextRun at_ = some next → fires next ∧ at_ ≤ next)
    (hfinds : ∀ at_ c, fires c → keep c = true → at_ < c → ∃ next, nextRun at_ = some next ∧ next ≤ c)
    (happart : ∀ at_, nextRun at_ = some at_ → ¬ fires (at_ + 1)) (cursor : Int) :
    PassesNone fires (fun c => fires c ∧ keep c = true) cursor (proposeAfter nextRun cursor) := by
  unfold proposeAfter
  cases hn : nextRun cursor with
  | none =>
    intro c hc
    by_contra hlt
    obtain ⟨next, hnext, _⟩ := hfinds cursor c hc.1 hc.2 (not_le.mp hlt)
    rw [hn] at hnext
    cases hnext
  | some first =>
    obtain ⟨hfires, hle⟩ := hanswers cursor first hn
    dsimp only
    split
    · next hstays =>
      -- The answer is the cursor itself, so the instant that the second question starts from is none at which Croner fires.
      obtain rfl : first = cursor := le_antisymm hstays hle
      have hbeyond : ∀ c, fires c → first < c → first + 1 < c := by
        intro c hc hlt
        rcases (Int.add_one_le_iff.mpr hlt).lt_or_eq with hlt' | rfl
        · exact hlt'
        · exact absurd hc (happart first hn)
      cases hagain : nextRun (first + 1) with
      | none =>
        intro c hc
        by_contra hlt
        obtain ⟨next, hnext, _⟩ := hfinds (first + 1) c hc.1 hc.2 (hbeyond c hc.1 (not_le.mp hlt))
        rw [hagain] at hnext
        cases hnext
      | some second =>
        obtain ⟨hfires', hle'⟩ := hanswers _ _ hagain
        refine ⟨hfires', Int.lt_of_add_one_le hle', fun c hc hlt => ?_⟩
        obtain ⟨next, hnext, hnc⟩ := hfinds (first + 1) c hc.1 hc.2 (hbeyond c hc.1 hlt)
        rw [hagain] at hnext
        exact Option.some.inj hnext ▸ hnc
    · next hlt =>
      refine ⟨hfires, not_le.mp hlt, fun c hc hcursor => ?_⟩
      obtain ⟨next, hnext, hnc⟩ := hfinds cursor c hc.1 hc.2 hcursor
      rw [hn] at hnext
      exact Option.some.inj hnext ▸ hnc

end CronScheduleAux

open CronScheduleAux

/-- What an answer of `firstOccurrenceStrictlyAfter` says of the occurrences: the next one, or that each comes after four hundred
instants at which Croner fires while the clock shows another time. -/
def IsFirstOccurrence (lib : CronLibrary) (fires : Int → Prop) (expression timezone : String) (after : Int) : Option Int → Prop
  | some next => IsNext (OccursAt lib fires expression timezone) after (some next)
  | none => ∀ at_, OccursAt lib fires expression timezone at_ → after < at_ →
      ∃ skipped : List Int, skipped.length = 400 ∧ skipped.Pairwise (· < ·) ∧
        ∀ c ∈ skipped, fires c ∧ ¬ OccursAt lib fires expression timezone c ∧ after < c ∧ c < at_

/-- The first occurrence after an instant is the next one, and a schedule is found to have none only where Croner fires four
hundred times in a row while the clock shows another time. -/
theorem first_occurrence_is_next {lib : CronLibrary} {fires : Int → Prop} {expression timezone : String}
    (hfires : FiresAt lib fires expression timezone) {after : Int} {result : Option Int}
    (h : firstOccurrenceStrictlyAfter lib expression timezone after = .ok result) :
    IsFirstOccurrence lib fires expression timezone after result := by
  obtain ⟨tz, nextRun, htz, hrun, rfl⟩ := firstOccurrenceStrictlyAfter_ok h
  obtain ⟨hanswers, hfinds, happart⟩ := hfires tz nextRun htz hrun
  have hnext := passesNone_proposeAfter hanswers hfinds happart
  have hoccurs : ∀ c, OccursAt lib fires expression timezone c ↔
      fires c ∧ matchesScheduledWallTime lib (normalizeCronExpression expression) tz c = true := by
    intro c
    refine ⟨?_, fun hc => ⟨tz, htz, hc⟩⟩
    rintro ⟨tz', htz', hc⟩
    obtain rfl := Except.ok.inj (htz.symm.trans htz')
    exact hc
  cases hsearch : search (proposeAfter nextRun) (matchesScheduledWallTime lib (normalizeCronExpression expression) tz) 400 after with
  | some next =>
    obtain ⟨hp, hlt, hleast⟩ := isNext_of_search hnext hsearch
    exact ⟨(hoccurs next).mpr hp, hlt, fun c hc => hleast c ((hoccurs c).mp hc)⟩
  | none =>
    intro at_ hat hlt
    obtain ⟨skipped, hlength, hsorted, hmem⟩ := skipped_of_search_eq_none hnext hsearch ((hoccurs at_).mp hat) hlt
    refine ⟨skipped, hlength, hsorted, fun c hc => ?_⟩
    obtain ⟨hfire, hskip, hrange⟩ := hmem c hc
    exact ⟨hfire, fun hocc => by simp [((hoccurs c).mp hocc).2] at hskip, hrange⟩

namespace CronScheduleExample

/-- A text of digits as a number. -/
def number (text : List Char) : Option Int :=
  if text ≠ [] ∧ text.all Char.isDigit = true then some (text.foldl (fun n c => 10 * n + (c.toNat - '0'.toNat : Int)) 0) else none

/-- Croner for the full hours, in a zone whose clock shows the hours of the instants. -/
def hourly : CronLibrary :=
  { nextRun := fun _ _ => .ok fun at_ => some ((at_ / 3600000 + 1) * 3600000)
    resolveTimezone := some
    localHourMinute := fun at_ _ => ⟨at_ / 60000 % 60, at_ / 3600000 % 24⟩
    number := number
    toISOString := fun at_ => toString at_ }

/-- Croner at half past two in a zone whose clock leaves out the hour from two on the first day: it proposes half past three
there, and answers that instant again when it is asked from it. -/
def halfPastTwo : CronLibrary :=
  { nextRun := fun _ _ => .ok fun at_ => if at_ ≤ 9000000 then some 9000000 else if at_ < 91800000 then some 91800000 else none
    resolveTimezone := some
    localHourMinute := fun at_ _ =>
      let local_ := if at_ < 7200000 then at_ else at_ + 3600000
      ⟨local_ / 60000 % 60, local_ / 3600000 % 24⟩
    number := number
    toISOString := fun at_ => toString at_ }

/-- The instants that Croner answers there. -/
def halfPastTwoFires (at_ : Int) : Prop := at_ = 9000000 ∨ at_ = 91800000

theorem firesAt_halfPastTwo (expression timezone : String) : FiresAt halfPastTwo halfPastTwoFires expression timezone := by
  intro tz nextRun _ hrun
  obtain ⟨_, _, hrun⟩ := Checks.bind_eq_ok.mp hrun
  obtain rfl := Except.ok.inj hrun
  refine ⟨fun at_ next hnext => ?_, fun at_ c hc _ hlt => ?_, ?_⟩
  · dsimp only at hnext
    split at hnext
    · obtain rfl := Option.some.inj hnext
      exact ⟨Or.inl rfl, by omega⟩
    · split at hnext
      · obtain rfl := Option.some.inj hnext
        exact ⟨Or.inr rfl, by omega⟩
      · cases hnext
  · dsimp only
    split
    · refine ⟨_, rfl, ?_⟩
      rcases hc with rfl | rfl <;> omega
    · split
      · refine ⟨_, rfl, ?_⟩
        rcases hc with rfl | rfl <;> omega
      · rcases hc with rfl | rfl <;> omega
  · intro at_ hstays hnext
    dsimp only at hstays
    split at hstays
    · rcases hnext with h | h <;> simp only [Option.some.injEq] at hstays <;> omega
    · split at hstays
      · rcases hnext with h | h <;> simp only [Option.some.injEq] at hstays <;> omega
      · cases hstays

theorem firstOccurrence_halfPastTwo : firstOccurrenceStrictlyAfter halfPastTwo " 30  2 * * *" "UTC" 5000 = .ok (some 91800000) := by
  decide

end CronScheduleExample

open CronScheduleExample

/-- Half past two of the second day: the instant proposed for the first day is passed over. -/
theorem first_occurrence_is_next_half_past_two :
    IsFirstOccurrence halfPastTwo halfPastTwoFires " 30  2 * * *" "UTC" 5000 (some 91800000) :=
  first_occurrence_is_next (firesAt_halfPastTwo _ _) firstOccurrence_halfPastTwo

namespace CronScheduleAux

variable {lib : CronLibrary} {fires : Int → Prop}

/-- A preview's loop lists the first occurrences after its cursor. -/
theorem segment_previewLoop {schedule tz : String} (hfires : FiresAt lib fires schedule tz) {count : Nat} {cursor : Int}
    {occurrences : List Int} (h : previewLoop lib schedule tz count cursor = .ok occurrences) :
    occurrences.length = count ∧ Segment (OccursAt lib fires schedule tz) cursor occurrences := by
  induction count generalizing cursor occurrences with
  | zero =>
    obtain rfl := Except.ok.inj h
    exact ⟨rfl, Segment.nil _ _⟩
  | succ count ih =>
    obtain ⟨next, rest, hfirst, hrest, rfl⟩ := previewLoop_succ_ok h
    obtain ⟨hlength, hsegment⟩ := ih hrest
    exact ⟨by simp [hlength], .cons (first_occurrence_is_next hfires hfirst) hsegment⟩

end CronScheduleAux

/-- What `assertSchedulable` accepts has five occurrences to come: the preview lists the first ones, with none left out, and the
job goes on with the first of them. -/
theorem schedulable_goes_on_with_preview {lib : CronLibrary} {fires : Int → Prop} {expression timezone : String} {after : Int}
    {scheduled : Schedulable} (hfires : FiresAt lib fires scheduled.schedule scheduled.timezone)
    (h : assertSchedulable lib expression timezone after = .ok scheduled) :
    ∃ rest, previewOccurrences lib expression timezone after cronPreviewOccurrenceCount =
        .ok ⟨scheduled.schedule, scheduled.timezone, scheduled.nextRunAt :: rest⟩ ∧
      rest.length + 1 = cronPreviewOccurrenceCount ∧
      Segment (OccursAt lib fires scheduled.schedule scheduled.timezone) after (scheduled.nextRunAt :: rest) := by
  obtain ⟨occurrences, hpreview, hfirst⟩ := assertSchedulable_ok h
  have hloop := previewOccurrences_ok hpreview
  obtain ⟨next, rest, hfirst', _, rfl⟩ := previewLoop_succ_ok hloop
  obtain rfl : scheduled.nextRunAt = next := Option.some.inj (Except.ok.inj (hfirst.symm.trans hfirst'))
  obtain ⟨hlength, hsegment⟩ := segment_previewLoop hfires hloop
  exact ⟨rest, hpreview, hlength, hsegment⟩

namespace CronScheduleExample

theorem firesAt_hourly (expression timezone : String) : FiresAt hourly (fun at_ => at_ % 3600000 = 0) expression timezone := by
  intro tz nextRun _ hrun
  obtain ⟨_, _, hrun⟩ := Checks.bind_eq_ok.mp hrun
  obtain rfl := Except.ok.inj hrun
  refine ⟨fun at_ next hnext => ?_, fun at_ c hc _ hlt => ⟨_, rfl, by omega⟩, fun at_ hstays => ?_⟩
  · obtain rfl := Option.some.inj hnext
    exact ⟨Int.mul_emod_left _ _, by omega⟩
  · have := Option.some.inj hstays
    omega

theorem schedulable_hourly : assertSchedulable hourly "0 * * * *" "UTC" 5000 = .ok ⟨"0 * * * *", "UTC", 3600000⟩ := by
  decide

end CronScheduleExample

/-- The first five full hours. -/
theorem schedulable_goes_on_with_preview_hourly : ∃ rest, rest.length + 1 = cronPreviewOccurrenceCount ∧
    Segment (OccursAt hourly (fun at_ => at_ % 3600000 = 0) "0 * * * *" "UTC") 5000 (3600000 :: rest) := by
  obtain ⟨rest, _, hlength, hsegment⟩ := schedulable_goes_on_with_preview (firesAt_hourly _ _) schedulable_hourly
  exact ⟨rest, hlength, hsegment⟩

end FirstTree
