import FirstTree.Lib.Runs
import FirstTree.Lib.Scripts
import FirstTree.Lemmas.ScheduledJobs
import FirstTree.Lemmas.ScheduledJobScripts
import FirstTree.Server.ScheduledJobs
import FirstTree.Theorems.CronSchedule

/-!
# Runs of the scheduled jobs

In every run of creations, updates, deletions, engagements and sweeps, in any order of their steps, with crashes anywhere and
other services writing in between: no occurrence of a job is triggered twice and each run is later than the triggers before it;
all triggers of a job but the last are acknowledged; no job is active whose owner has deleted the chat; and what a step changes of
the jobs is licensed by its call.
-/

namespace FirstTree

open Runs Transactions Scripts CronSchedule ScheduledJobs ScheduledJobsAux

/-- The calls on the scheduled jobs in progress. -/
abbrev CronSystem (Tx : Type) := Running CronCall CronStore CronLock CronError Tx

/-- What can happen to the scheduled jobs. -/
abbrev CronOp (Tx : Type) := ScriptOp CronCall Tx

variable {Tx : Type} [DecidableEq Tx]

/-- One step of the calls on the scheduled jobs. -/
def cronStep (lib : CronLibrary) (localeCompare : String → String → Int) (s : CronSystem Tx) (op : CronOp Tx) :
    Option (CronSystem Tx) :=
  Scripts.step CronLock.conflicts (CronCall.script lib localeCompare) s op

namespace ScheduledJobsAux

variable {lib : CronLibrary} {localeCompare : String → String → Int} {store : CronStore} {ops : List (CronOp Tx)}
  {s s' : CronSystem Tx} {op : CronOp Tx}

/-- In every run from rows in order the rows are in order. -/
theorem scheduleOk_of_run (hlib : GoesOn lib) (hstart : ScheduleOk store)
    (hr : Run (ofPartial (cronStep lib localeCompare)) (.idle store) ops s) : ScheduleOk s.store := by
  have hok : JobsOk cronDiscipline (fun _ _ _ => True) CronCall.Good CronLock.conflicts s :=
    jobsOk_of_run conflicts_symm (fun call _ s _ => ok_cronCall hlib call s) hstart
      (admitted_of_run (fun _ _ _ => trivial) (fun _ _ _ => trivial) hr)
  exact hok.store

end ScheduledJobsAux

namespace ScheduledJobsExample

open CronScheduleExample

/-- A job that runs at every full hour, due at the first. -/
def job : CronJobRow :=
  { ownerMemberId := "o", controlChatId := "c", agentId := "a", name := "n", chatMode := .reuseControlChat,
    cronExpression := "0 * * * *"
    timezone := "UTC", prompt := "p", state := .active, stateReason := none, revision := 1, nextRunAt := some 3600000
    lastTriggerMessageId := none }

/-- The owner of the job. -/
def owner : CronMember := ⟨"org", "h", .active⟩

/-- The store with the job, shortly after it is due. -/
def store : CronStore :=
  { clock := 3600005, jobs := (∅ : Rows String CronJobRow).insert "j" job
    identities := (∅ : Rows String CronJobIdentity).insert "j" job.toCronJobIdentity, messages := ∅, inbox := ∅
    members := (∅ : Rows String CronMember).insert "o" owner
    agents := (∅ : Rows String CronAgent).insert "a" ⟨"org", "o", "i", some "agent", "Agent", .active, some "cl"⟩
    memberships := ((∅ : Rows (String × String) ChatAccessMode).insert ("c", "h") .speaker).insert ("c", "a") .speaker
    engagement := ∅
    routes :=
      { chats := (∅ : Rows String String).insert "c" "org"
        presence := (∅ : Rows String CronPresence).insert "a" ⟨true, some "cl", some "in", 3600000⟩
        clients := (∅ : Rows String CronClient).insert "cl" ⟨none, true, some "in", none, 3600000⟩
        instances := (∅ : Rows String Int).insert "in" 3600000 } }

/-- A sweep that sends a trigger as a message. -/
def sweep (messageId : String) : CronCall := .sweepCronJobs 60 fun _ => ⟨messageId, true⟩

/-- Two sweeps at once, of which the second skips the row that the first has locked. -/
def sweeps : List (CronOp Nat) :=
  [ScriptOp.begin 0 (sweep "m"), ScriptOp.begin 1 (sweep "n"), ScriptOp.run 0 true, ScriptOp.run 1 true, ScriptOp.run 0 false,
    ScriptOp.run 0 true, ScriptOp.run 1 true] ++ List.replicate 20 (ScriptOp.run 0 true) ++ List.replicate 2 (ScriptOp.run 1 true)

/-- The sweeps, and then the owner deletes the chat. -/
def history : List (CronOp Nat) :=
  sweeps ++ [ScriptOp.begin 2 (CronCall.postEngagement "c" "o" .deleted)] ++ List.replicate 8 (ScriptOp.run 2 true)

/-- What a run leaves: the jobs with their next runs, their last triggers and their states, the triggers, and the open scripts. -/
structure Outcome where
  jobs : List (String × Option Int × Option String × CronJobState)
  triggers : List (String × Option CronTrigger)
  active : List Nat
  deriving DecidableEq

/-- The outcome of a run. -/
def outcome (s : CronSystem Nat) : Outcome :=
  ⟨s.store.jobs.entries.map fun e => (e.1, e.2.nextRunAt, e.2.lastTriggerMessageId, e.2.state),
    s.store.messages.entries.map fun e => (e.1, e.2.cronTrigger), s.active.entries.map (·.1)⟩

/-- One sweep has triggered the job, which goes on with the next full hour until it is paused. -/
theorem history_ends : (history.foldlM (cronStep hourly fun _ _ => 0) (.idle store)).map outcome =
    some ⟨[("j", none, some "m", .paused)], [("m", some ⟨"j", 3600000, "cron/j/3600000"⟩)], []⟩ := by
  decide +kernel

theorem goesOn_hourly : GoesOn hourly := by
  rintro _ _ nextRun hrun at_ next hnext
  obtain rfl := Except.ok.inj hrun
  obtain rfl := Option.some.inj hnext
  omega

/-- The one row of a table is found by its key. -/
theorem lookup_only {α : Type} {key k : String} {row row' : α} (h : ((∅ : Rows String α).insert key row).lookup k = some row') :
    k = key ∧ row' = row := by
  rw [AssocList.lookup_insert_ite] at h
  split at h
  · next hk => exact ⟨hk, (Option.some.inj h).symm⟩
  · cases h

theorem scheduleOk_store : ScheduleOk store := by
  have hjob : ∀ key row, store.jobs.lookup key = some row → key = "j" ∧ row = job := fun _ _ => lookup_only
  have howner : ∀ key row, store.members.lookup key = some row → key = "o" ∧ row = owner := fun _ _ => lookup_only
  have hnone : ∀ key m at_, ¬ TriggerOf key m at_ store := by
    rintro key m at_ ⟨message, _, hmessage, _⟩
    cases hmessage
  refine ⟨fun key row hrow => ?_, fun key at_ m m' hm => absurd hm (hnone _ _ _),
    fun key row next hrow _ m at_ hm => absurd hm (hnone _ _ _),
    fun key m at_ hm => absurd hm (hnone _ _ _), fun key row hrow m at_ hm => absurd hm (hnone _ _ _), fun key row hrow => ?_,
    fun key row hrow => ?_, fun key row member hrow _ hmember hdeleted => ?_, fun key key' row row' hrow hrow' _ => ?_⟩
  · obtain ⟨rfl, rfl⟩ := hjob key row hrow
    exact ⟨by decide, by decide, by decide⟩
  · obtain ⟨rfl, rfl⟩ := hjob key row hrow
    rfl
  · obtain ⟨rfl, rfl⟩ := hjob key row hrow
    exact ⟨owner, rfl⟩
  · cases hdeleted
  · rw [(howner key row hrow).1, (howner key' row' hrow').1]

end ScheduledJobsExample

open ScheduledJobsExample CronScheduleExample

/-! ## The triggers -/

/-- What a run keeps of the triggers of the jobs: a job has a next run when it is active and only then, no occurrence of it has two
triggers, and the next run is later than all that it has triggers for. -/
structure TriggersInOrder (s : CronStore) : Prop where
  shape : ∀ id row, s.jobs.lookup id = some row → JobShape row
  once : FiredOnce s
  before : FiredBefore s

/-- In every run no occurrence of a job is triggered twice, by however many sweeps at once, and a job goes on later than its triggers,
however it is updated, paused and resumed in between. -/
theorem occurrences_are_triggered_once {lib : CronLibrary} (hlib : GoesOn lib) {localeCompare : String → String → Int}
    {store : CronStore} {ops : List (CronOp Tx)} {s : CronSystem Tx} (hstart : ScheduleOk store)
    (hr : Run (ofPartial (cronStep lib localeCompare)) (.idle store) ops s) : TriggersInOrder s.store :=
  have hok := scheduleOk_of_run hlib hstart hr
  ⟨hok.shape, hok.once, hok.before⟩

/-- Two sweeps at once trigger the first full hour once. -/
theorem occurrences_are_triggered_once_history : ∃ s : CronSystem Nat, (outcome s).active = [] ∧ TriggersInOrder s.store := by
  obtain ⟨s, hs, hout⟩ := Option.map_eq_some_iff.mp history_ends
  exact ⟨s, by rw [hout], occurrences_are_triggered_once goesOn_hourly scheduleOk_store (Run.of_foldlM hs)⟩

/-- In every run each trigger of a job is acknowledged, or is the last one: a sweep triggers no job whose last trigger is not
acknowledged. -/
theorem one_trigger_is_outstanding {lib : CronLibrary} (hlib : GoesOn lib) {localeCompare : String → String → Int} {store : CronStore}
    {ops : List (CronOp Tx)} {s : CronSystem Tx} (hstart : ScheduleOk store)
    (hr : Run (ofPartial (cronStep lib localeCompare)) (.idle store) ops s) : OneOutstanding s.store :=
  (scheduleOk_of_run hlib hstart hr).outstanding

namespace ScheduledJobsExample

/-- The route of the agent, seen at an instant. -/
def routesAt (at_ : Int) : CronRoutes :=
  { store.routes with
    presence := (∅ : Rows String CronPresence).insert "a" ⟨true, some "cl", some "in", at_⟩
    clients := (∅ : Rows String CronClient).insert "cl" ⟨none, true, some "in", none, at_⟩
    instances := (∅ : Rows String Int).insert "in" at_ }

/-- A sweep that claims the job, and goes on for so many steps. -/
def sweepFor (name : Nat) (messageId : String) (steps : Nat) : List (CronOp Nat) :=
  [ScriptOp.begin name (sweep messageId), ScriptOp.run name true, ScriptOp.run name false] ++
    List.replicate steps (ScriptOp.run name true)

/-- A statement of another service. -/
def write (name : Nat) (w : CronWrite) : List (CronOp Nat) := .begin name (.writeOther w) :: List.replicate 3 (.run name true)

/-- The first full hour is triggered, and a sweep meets the second one while the trigger is not acknowledged. -/
def unacknowledged : List (CronOp Nat) :=
  sweepFor 0 "m" 21 ++ write 1 (.tick 3600000) ++ write 2 (.routes (routesAt 7200000)) ++ sweepFor 3 "n" 16

/-- The trigger is acknowledged before a sweep meets the third full hour. -/
def acknowledged : List (CronOp Nat) :=
  write 4 (.inbox ("i", "m", "c") .ack) ++ write 5 (.tick 3600000) ++ write 6 (.routes (routesAt 10800000)) ++ sweepFor 7 "p" 24

theorem unacknowledged_ends : (unacknowledged.foldlM (cronStep hourly fun _ _ => 0) (.idle store)).map outcome =
    some ⟨[("j", some 10800000, some "m", .active)], [("m", some ⟨"j", 3600000, "cron/j/3600000"⟩)], []⟩ := by
  decide +kernel

theorem acknowledged_ends : ((unacknowledged ++ acknowledged).foldlM (cronStep hourly fun _ _ => 0) (.idle store)).map outcome =
    some ⟨[("j", some 14400000, some "p", .active)],
      [("p", some ⟨"j", 10800000, "cron/j/10800000"⟩), ("m", some ⟨"j", 3600000, "cron/j/3600000"⟩)], []⟩ := by
  decide +kernel

end ScheduledJobsExample

/-- The second full hour is skipped while the trigger of the first is outstanding; the third one is triggered once it is
acknowledged. -/
theorem one_trigger_is_outstanding_skip : ∃ s₁ s₂ : CronSystem Nat,
    (outcome s₁).triggers.map (·.1) = ["m"] ∧ (outcome s₁).jobs = [("j", some 10800000, some "m", .active)] ∧
      OneOutstanding s₁.store ∧ (outcome s₂).triggers.map (·.1) = ["p", "m"] ∧ OneOutstanding s₂.store := by
  obtain ⟨s₁, hs₁, hout₁⟩ := Option.map_eq_some_iff.mp unacknowledged_ends
  obtain ⟨s₂, hs₂, hout₂⟩ := Option.map_eq_some_iff.mp acknowledged_ends
  exact ⟨s₁, s₂, by rw [hout₁]; rfl, by rw [hout₁], one_trigger_is_outstanding goesOn_hourly scheduleOk_store (Run.of_foldlM hs₁),
    by rw [hout₂]; rfl, one_trigger_is_outstanding goesOn_hourly scheduleOk_store (Run.of_foldlM hs₂)⟩

/-! ## The owners -/

/-- In every run no job is active whose owner has deleted the chat, though creations, resumptions and sweeps run while it is
deleted. -/
theorem active_jobs_have_engaged_owners {lib : CronLibrary} (hlib : GoesOn lib) {localeCompare : String → String → Int}
    {store : CronStore} {ops : List (CronOp Tx)} {s : CronSystem Tx} (hstart : ScheduleOk store)
    (hr : Run (ofPartial (cronStep lib localeCompare)) (.idle store) ops s) : OwnersEngaged s.store :=
  (scheduleOk_of_run hlib hstart hr).engaged

/-- The job is paused when its owner deletes the chat. -/
theorem active_jobs_have_engaged_owners_history : ∃ s : CronSystem Nat,
    (outcome s).jobs = [("j", none, some "m", .paused)] ∧ OwnersEngaged s.store := by
  obtain ⟨s, hs, hout⟩ := Option.map_eq_some_iff.mp history_ends
  exact ⟨s, by rw [hout], active_jobs_have_engaged_owners goesOn_hourly scheduleOk_store (Run.of_foldlM hs)⟩

/-! ## The changes -/

/-- After every run, a step keeps the identity of every job that stays and raises its revision by one with each change of its
configuration; and what it changes of the jobs is licensed by its call: an update or a deletion changes its own job, at the
revision its caller has read, while the caller is its owner with access to the route; a creation adds a job of a caller with that
access; a deletion of a chat pauses jobs of its caller there; and a sweep takes due jobs on. -/
theorem changes_of_jobs_are_licensed {lib : CronLibrary} (hlib : GoesOn lib) {localeCompare : String → String → Int}
    {store : CronStore}
    {ops : List (CronOp Tx)} {s s' : CronSystem Tx} {op : CronOp Tx} {call : CronCall} (hstart : ScheduleOk store)
    (hr : Run (ofPartial (cronStep lib localeCompare)) (.idle store) ops s) (hstep : cronStep lib localeCompare s op = some s')
    (hcall : callOf s op = some call) : call.Good s.store s'.store :=
  good_of_run (D := cronDiscipline) conflicts_symm (fun call _ s _ => ok_cronCall hlib call s) good_refl hstart
    (admitted_of_run (fun _ _ _ => trivial) (fun _ _ _ => trivial) hr) (fun _ _ _ => trivial) hstep hcall

namespace ScheduledJobsExample

/-- The deletion of the job as it is after the sweeps, up to its commit. -/
def deletion : List (CronOp Nat) :=
  sweeps ++ [ScriptOp.begin 2 (CronCall.deleteCronJob ⟨"j", 1, none, none, some "o", some "h"⟩)] ++
    List.replicate 9 (ScriptOp.run 2 true)

/-- The job that a deletion is about. -/
def deleted : CronCall → Option String
  | .deleteCronJob input => some input.jobId
  | _ => none

/-- The step that commits a deletion: the job it is about, and the jobs it leaves. -/
structure Committed where
  job : Option String
  jobs : Option (List String)
  deriving DecidableEq

/-- The next step of the deletion. -/
def committed (s : CronSystem Nat) : Committed :=
  ⟨(callOf s (.run 2 true)).bind deleted, (cronStep hourly (fun _ _ => 0) s (.run 2 true)).map fun s' => (outcome s').jobs.map (·.1)⟩

theorem deletion_runs : (deletion.foldlM (cronStep hourly fun _ _ => 0) (.idle store)).map committed = some ⟨some "j", some []⟩ := by
  decide +kernel

end ScheduledJobsExample

/-- The deletion is licensed when it is committed. -/
theorem changes_of_jobs_are_licensed_deletion : ∃ (s s' : CronSystem Nat) (call : CronCall),
    callOf s (.run 2 true) = some call ∧ cronStep hourly (fun _ _ => 0) s (.run 2 true) = some s' ∧ (outcome s').jobs = [] ∧
      call.Good s.store s'.store := by
  obtain ⟨s, hs, hout⟩ := Option.map_eq_some_iff.mp deletion_runs
  obtain ⟨hdeleted, hstepped⟩ := Committed.mk.inj hout
  obtain ⟨s', hstep, hjobs⟩ := Option.map_eq_some_iff.mp hstepped
  obtain ⟨call, hcall, _⟩ := Option.bind_eq_some_iff.mp hdeleted
  exact ⟨s, s', call, hcall, hstep, List.map_eq_nil_iff.mp hjobs,
    changes_of_jobs_are_licensed goesOn_hourly scheduleOk_store (Run.of_foldlM hs) hstep hcall⟩

end FirstTree
