import FirstTree.Lib.Collapsing
import FirstTree.Lib.NextElements
import FirstTree.Shared.ContextSourceLink

/-!
# Cron schedules

`schedule.ts`, with the normal forms of `cron-job.ts`: the next occurrence of a schedule, the preview of its first ones and the
check that it has any. Croner, `Intl` and the numbers of texts come as parameters; an instant is a number of milliseconds.
-/

namespace FirstTree

/-- What a cron call fails with: a schedule that is not one, an answer of the API, another error, or the database. -/
inductive CronError where
  | invalidSchedule (message : String)
  | app (statusCode : Nat) (code message : String)
  | unexpected (message : String)
  | database
  deriving DecidableEq

/-- `LocalHourMinute`. -/
structure LocalHourMinute where
  minute : Int
  hour : Int

/-- Croner, which may not take an expression for one; `Intl`, with the name of a time zone and the clock there; `Number` of a
text, where it is an integer; and the text of an instant. -/
structure CronLibrary where
  nextRun : String → String → Except String (Int → Option Int)
  resolveTimezone : String → Option String
  localHourMinute : Int → String → LocalHourMinute
  number : List Char → Option Int
  toISOString : Int → String

namespace CronSchedule

/-- `CRON_PREVIEW_OCCURRENCE_COUNT`. -/
def cronPreviewOccurrenceCount : Nat := 5

/-- `normalizeCronExpression`. -/
def normalizeCronExpression (raw : String) : String :=
  String.ofList (Collapsing.collapse ShellCommandIo.isSpace ' ' false (ContextSourceLink.trim raw.toList))

variable (lib : CronLibrary)

/-- `normalizeIanaTimezone`, or the message of its error. -/
def normalizeIanaTimezone (raw : String) : Except String String :=
  let trimmed := String.ofList (ContextSourceLink.trim raw.toList)
  if trimmed = "" then .error "timezone must be a non-empty IANA zone"
  else match lib.resolveTimezone trimmed with
    | none => .error s!"unrecognized IANA timezone: {trimmed}"
    | some resolved => if resolved = "" then .error s!"unrecognized IANA timezone: {trimmed}" else .ok resolved

/-- `buildCron`, as its `nextRun`. -/
def buildCron (expression timezone : String) : Except String (Int → Option Int) := do
  lib.nextRun (normalizeCronExpression expression) (← normalizeIanaTimezone lib timezone)

/-- The step of a token, and what stands before it; none where the step is not a positive number. -/
def clockTokenStep (raw : List Char) : Option (List Char × Int) :=
  if '/' ∈ raw then
    let parts := raw.splitOn '/'
    match lib.number (parts[1]?.getD []) with
    | some step => if step ≤ 0 then none else some (parts[0]?.getD ['*'], step)
    | none => none
  else some (raw, 1)

/-- The `resolve` of `clockTokenMatches`. -/
def resolveSide (side : List Char) : Option Int :=
  if side = ['*'] then none else lib.number side

/-- `clockTokenMatches`. -/
def clockTokenMatches (token : List Char) (value : Int) : Bool :=
  let raw := ContextSourceLink.trim token
  if raw = [] ∨ raw = ['*'] then true
  else match clockTokenStep lib raw with
    | none => false
    | some (base, step) =>
      if '-' ∈ base then
        let sides := base.splitOn '-'
        match resolveSide lib (sides[0]?.getD []), resolveSide lib (sides[1]?.getD []) with
        | some start, some stop => if value < start ∨ value > stop then false else decide ((value - start).tmod step = 0)
        | _, _ => false
      else if base = ['*'] ∨ base = [] then decide (value.tmod step = 0)
      else match resolveSide lib base with
        | none => false
        | some exact => if exact ≠ value then false else decide (step = 1 ∨ value.tmod step = 0)

/-- `clockFieldMatches`. -/
def clockFieldMatches (field : List Char) (value : Int) : Bool :=
  (field.splitOn ',').any fun token => clockTokenMatches lib token value

/-- `matchesScheduledWallTime`. -/
def matchesScheduledWallTime (expression timezone : String) (at_ : Int) : Bool :=
  match (normalizeCronExpression expression).toList.splitOn ' ' with
  | [minuteF, hourF, _, _, _] =>
    let clock := lib.localHourMinute at_ timezone
    clockFieldMatches lib minuteF clock.minute && clockFieldMatches lib hourF clock.hour
  | _ => false

/-- The instant that Croner proposes after a cursor; it is asked again for one beyond when it has not gone on. -/
def proposeAfter (nextRun : Int → Option Int) (cursor : Int) : Option Int :=
  match nextRun cursor with
  | none => none
  | some next => if next ≤ cursor then nextRun (cursor + 1) else some next

/-- `firstOccurrenceStrictlyAfter`. -/
def firstOccurrenceStrictlyAfter (expression timezone : String) (after : Int) : Except CronError (Option Int) :=
  let schedule := normalizeCronExpression expression
  match normalizeIanaTimezone lib timezone with
  | .error message => .error (.invalidSchedule message)
  | .ok tz =>
    match buildCron lib schedule tz with
    | .error message => .error (.invalidSchedule message)
    | .ok nextRun => .ok (NextElements.search (proposeAfter nextRun) (matchesScheduledWallTime lib schedule tz) 400 after)

/-- The loop of `previewOccurrences`. -/
def previewLoop (schedule tz : String) : Nat → Int → Except CronError (List Int)
  | 0, _ => .ok []
  | count + 1, cursor => do
    match ← firstOccurrenceStrictlyAfter lib schedule tz cursor with
    | none => .error (.invalidSchedule "schedule has no future occurrences")
    | some next => return next :: (← previewLoop schedule tz count next)

/-- What `previewOccurrences` returns, with the instants of the occurrences. -/
structure Preview where
  schedule : String
  timezone : String
  occurrences : List Int

/-- `previewOccurrences`. A time zone that is none is no error of the schedule here. -/
def previewOccurrences (expression timezone : String) (after : Int) (count : Nat) : Except CronError Preview :=
  let schedule := normalizeCronExpression expression
  match normalizeIanaTimezone lib timezone with
  | .error message => .error (.unexpected message)
  | .ok tz => (previewLoop lib schedule tz count after).map fun occurrences => ⟨schedule, tz, occurrences⟩

/-- What `assertSchedulable` returns. -/
structure Schedulable where
  schedule : String
  timezone : String
  nextRunAt : Int
  deriving DecidableEq

/-- `assertSchedulable`. -/
def assertSchedulable (expression timezone : String) (after : Int) : Except CronError Schedulable := do
  let preview ← previewOccurrences lib expression timezone after cronPreviewOccurrenceCount
  match ← firstOccurrenceStrictlyAfter lib preview.schedule preview.timezone after with
  | none => .error (.invalidSchedule "schedule has no future occurrences")
  | some next => .ok ⟨preview.schedule, preview.timezone, next⟩

end CronSchedule

end FirstTree
