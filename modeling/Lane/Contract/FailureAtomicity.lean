import Lane.Board.Processing
import Lane.Stock.Operations

/-! A refused operation on retained jobs leaves the queue as it was. Completion reads its repeat
schedule after it has stored the job, so there the schedules of all stored jobs must parse.
-/

namespace Lane

-----------------------------------------------------------------------------------------
-- Schedules that parse
-----------------------------------------------------------------------------------------

/-- The repeat settings of the options, if any, pass their validation. -/
def RepeatsValidly (cron : Cron) (options : JobOptions) : Prop :=
  ∀ settings, options.repeatOptions = some settings → settings.validate cron = .ok ()

theorem lasting_repeatsValidly (cron : Cron) : Lasting (RepeatsValidly cron) where
  unnamed _ valid := valid
  delayed _ _ valid := valid
  ordered _ _ _ valid := valid

theorem repeatsValidly_of_validate {cron : Cron} {options : JobOptions} {now : DateTime}
    (valid : validateJobOptionsAt cron options now = .ok ())
    : RepeatsValidly cron options := by
  intro settings repeats
  have accepted : options.validate cron = .ok () := by
    cases checked : options.validate cron with
    | ok => rfl
    | error error => simp [validateJobOptionsAt, checked, bind, Except.bind] at valid
  cases checked : settings.validate cron with
  | ok => rfl
  | error error =>
      exfalso
      unfold JobOptions.validate at accepted
      simp only [repeats, validateSome, checked, bind, Except.bind] at accepted
      split at accepted
      · cases accepted
      · split at accepted <;> cases accepted

/-- A valid schedule has its next time, or none, but no error. -/
theorem nextScheduledAt_ne_error {cron : Cron} {settings : RepeatOptions} {error : LaneError}
    (valid : settings.validate cron = .ok ()) (after : DateTime)
    : settings.nextScheduledAt cron after ≠ .error error := by
  intro failed
  unfold RepeatOptions.nextScheduledAt at failed
  split at failed
  · cases failed
  · next expression scheduled =>
      cases parsed : parseCronExpression cron expression with
      | ok next =>
          rw [parsed] at failed
          cases failed
      | error error =>
          simp [RepeatOptions.validate, scheduled, parsed, bind, Except.bind] at valid

theorem nextRepeatJob_ne_error {cron : Cron} {job : Job} {error : LaneError}
    (valid : RepeatsValidly cron job.options) (now : DateTime) (uuid : JobId)
    : nextRepeatJob cron job now uuid ≠ .error error := by
  intro failed
  unfold nextRepeatJob at failed
  split at failed
  · cases failed
  · next settings repeats =>
      simp only at failed
      split at failed
      · cases failed
      · split at failed
        · next scheduled => exact nextScheduledAt_ne_error (valid settings repeats) now scheduled
        · cases failed
        · split at failed <;> cases failed

-----------------------------------------------------------------------------------------
-- Refused operations
-----------------------------------------------------------------------------------------

/-- An outcome that leaves the state unless it is accepted. -/
def Untouched {α : Type} (s : InMemoryJobQueueState) (outcome : InMemoryJobQueueState × Result α)
    : Prop :=
  ∀ error, outcome.2 = .error error → outcome.1 = s

namespace Untouched

variable {α : Type} {s t : InMemoryJobQueueState}

theorem same (result : Result α) : Untouched s (s, result) := fun _ _ => rfl

theorem accepted (value : α) : Untouched s (t, .ok value) := fun _ failed => nomatch failed

theorem answered {outcome : InMemoryJobQueueState × Result α} (untouched : Untouched s outcome)
    : Untouched s (answered outcome) := by
  intro error failed
  cases result : outcome.2 with
  | ok value => simp [Lane.answered, result, Except.map] at failed
  | error refusal => exact untouched refusal result

end Untouched

namespace InMemoryJobQueueState

variable (s : InMemoryJobQueueState)

/-- The completion of a job with a valid schedule never fails after its checks. -/
theorem untouched_completeJob {cron : Cron} (jobId : JobId) (lockToken : JobLockToken)
    (value : Value) (now : DateTime) (uuid : JobId)
    (schedules
      : ∀ job error,
          s.requireCompletable jobId lockToken = .ok job
          → nextRepeatJob cron (completedJob job value now) now uuid ≠ .error error)
    : Untouched s (s.completeJob cron jobId lockToken value now uuid) := by
  unfold completeJob
  split
  · exact .same _
  · next job completable =>
      unfold completeLocked
      simp only
      split
      · exact .accepted _
      · split
        · next error failed => exact absurd failed (schedules job error completable)
        · exact .accepted _
        · exact .accepted _

theorem untouched_failActiveJob (jobId : JobId) (lockToken : JobLockToken) (error : String)
    (now : DateTime) (allowRetry : Bool)
    : Untouched s (s.failActiveJob jobId lockToken error now allowRetry) := by
  unfold failActiveJob
  split
  · exact .same _
  · exact .accepted _

theorem untouched_renew (jobId : JobId) (lockToken : JobLockToken) (leaseFor : Duration)
    (now : DateTime)
    : Untouched s (s.renew jobId lockToken leaseFor now) := by
  unfold renew
  split
  · exact .same _
  · exact .accepted _

theorem untouched_delayActive (jobId : JobId) (lockToken : JobLockToken) (delay : Duration)
    (now : DateTime)
    : Untouched s (s.delayActive jobId lockToken delay now) := by
  unfold delayActive
  split
  · exact .same _
  · exact .accepted _

theorem untouched_releaseActive (jobId : JobId) (lockToken : JobLockToken) (now : DateTime)
    : Untouched s (s.releaseActive jobId lockToken now) := by
  unfold releaseActive
  split
  · exact .same _
  · exact .accepted _

theorem untouched_promote (jobId : JobId) (now : DateTime)
    : Untouched s (s.promote jobId now) := by
  unfold promote
  split
  · exact .same _
  · split
    · exact .same _
    · exact .accepted _

theorem untouched_reschedule (jobId : JobId) (delay : Duration) (now : DateTime)
    : Untouched s (s.reschedule jobId delay now) := by
  unfold reschedule
  split
  · exact .same _
  · split
    · exact .same _
    · split
      · exact .same _
      · exact .accepted _

theorem untouched_retry (find : Find) (jobId : JobId) (now : DateTime)
    : Untouched s (s.retry find jobId now) := by
  unfold retry
  split
  · exact .same _
  · split
    · exact .same _
    · split
      · exact .same _
      · exact .accepted _

theorem untouched_setPriorityOrder (jobId : JobId) (priority : JobPriority) (lifo : Option Bool)
    : Untouched s (s.setPriorityOrder jobId priority lifo) := by
  unfold setPriorityOrder
  split
  · exact .same _
  · split
    · exact .same _
    · exact .accepted _

theorem untouched_upsertRepeat (cron : Cron) (find : Find) (queue : QueueName)
    (spec : JobSpec × JobId) (now : DateTime)
    : Untouched s (s.upsertRepeat cron find queue spec now) := by
  unfold upsertRepeat
  split
  · exact .same _
  · split
    · exact .same _
    · simp only
      split
      · exact .same _
      · unfold upsertRepeatLocked
        simp only
        split
        · exact .same _
        · exact .accepted _

theorem untouched_remove (jobId : JobId) (clock : DateTime)
    : Untouched s (s.remove jobId clock) := by
  unfold remove
  split
  · exact .same _
  · split
    · exact .same _
    · exact .accepted _

theorem untouched_removeRepeat (find : Find) (repeatKey : String) (clock : DateTime)
    : Untouched s (s.removeRepeat find repeatKey clock) := by
  unfold removeRepeat
  split
  · exact .same _
  · split
    · exact .same _
    · exact .accepted _

theorem untouched_removeChildDependency (childId : JobId) (now : DateTime)
    : Untouched s (s.removeChildDependency childId now) := by
  unfold removeChildDependency
  split
  · exact .same _
  · split
    · exact .same _
    · split
      · exact .same _
      · split
        · exact .same _
        · exact .accepted _

end InMemoryJobQueueState

-----------------------------------------------------------------------------------------
-- Atomicity
-----------------------------------------------------------------------------------------

/-- The operations on retained jobs, and the upsert of a series. -/
def Op.managesJobs : Op → Bool
  | .completeJob .. | .failJob .. | .failJobDiscardingRetry .. | .renew .. | .delayActive ..
  | .releaseActive .. | .promote .. | .reschedule .. | .retry .. | .setPriorityOrder ..
  | .upsertRepeat .. | .remove .. | .removeRepeat .. | .removeChildDependency .. => true
  | _ => false

/-- An operation that fails leaves the state, by cases on the operation. -/
theorem untouched_perform {cron : Cron} {s : InMemoryJobQueueState}
    (schedules
      : ∀ jobId lockToken job value now uuid error,
          s.requireCompletable jobId lockToken = .ok job
          → nextRepeatJob cron (InMemoryJobQueueState.completedJob job value now) now uuid
            ≠ .error error)
    (find : Find) (queue : QueueName) {op : Op} (manages : op.managesJobs = true)
    : Untouched s (perform cron find queue s op) := by
  cases op with
  | completeJob jobId lockToken value now uuid =>
      refine .answered (s.untouched_completeJob jobId lockToken value now uuid ?_)
      intro job error completable
      exact schedules jobId lockToken job value now uuid error completable
  | failJob jobId lockToken error now =>
      exact .answered (s.untouched_failActiveJob jobId lockToken error now true)
  | failJobDiscardingRetry jobId lockToken error now =>
      exact .answered (s.untouched_failActiveJob jobId lockToken error now false)
  | renew jobId lockToken leaseFor now =>
      exact .answered (s.untouched_renew jobId lockToken leaseFor now)
  | delayActive jobId lockToken delay now =>
      exact .answered (s.untouched_delayActive jobId lockToken delay now)
  | releaseActive jobId lockToken now =>
      exact .answered (s.untouched_releaseActive jobId lockToken now)
  | promote jobId now => exact .answered (s.untouched_promote jobId now)
  | reschedule jobId delay now => exact .answered (s.untouched_reschedule jobId delay now)
  | retry jobId now => exact .answered (s.untouched_retry find jobId now)
  | setPriorityOrder jobId priority lifo =>
      exact .answered (s.untouched_setPriorityOrder jobId priority lifo)
  | upsertRepeat spec now => exact .answered (s.untouched_upsertRepeat cron find queue spec now)
  | remove jobId clock => exact .answered (s.untouched_remove jobId clock)
  | removeRepeat repeatKey clock => exact .answered (s.untouched_removeRepeat find repeatKey clock)
  | removeChildDependency childId now =>
      exact .answered (s.untouched_removeChildDependency childId now)
  | _ => cases manages

/-- A job that passes the checks of a completion is retained with a valid schedule. -/
theorem nextRepeatJob_of_reachable {cron : Cron} {queue : QueueName} {s : InMemoryJobQueueState}
    (reached : Reachable cron queue s) {jobId : JobId} {lockToken : JobLockToken} {job : Job}
    (completable : s.requireCompletable jobId lockToken = .ok job) (value : Value)
    (now : DateTime) (uuid : JobId) (error : LaneError)
    : nextRepeatJob cron (InMemoryJobQueueState.completedJob job value now) now uuid
      ≠ .error error := by
  have stocked : s.Stocked (RepeatsValidly cron) :=
    .of_reachable (lasting_repeatsValidly cron) (fun _ _ => repeatsValidly_of_validate) reached
  have retained : s.jobs.get jobId = some job :=
    (InMemoryJobQueueState.requireCompletable_ok completable).1
  exact nextRepeatJob_ne_error (stocked.retained retained) now uuid

/-- In every reachable state a refused operation changes nothing, and a completion that has
stored its job never meets a schedule that fails.
-/
theorem refused_operation_leaves_state {cron : Cron} {queue : QueueName}
    {s : InMemoryJobQueueState} (reached : Reachable cron queue s)
    : (∀ find op error,
        op.managesJobs = true
        → (perform cron find queue s op).2 = .error error
        → (perform cron find queue s op).1 = s)
      ∧ ∀ jobId lockToken job value now uuid error,
          s.requireCompletable jobId lockToken = .ok job
          → nextRepeatJob cron (InMemoryJobQueueState.completedJob job value now) now uuid
            ≠ .error error := by
  have schedules := @nextRepeatJob_of_reachable cron queue s reached
  constructor
  · intro find op error manages
    refine untouched_perform ?_ find queue manages error
    intro jobId lockToken job value now uuid error completable
    exact schedules completable value now uuid error
  · intro jobId lockToken job value now uuid error completable
    exact schedules completable value now uuid error

/-- A claimed job of a repeat series. -/
def claimedRepeat : InMemoryJobQueueState :=
  serve noCron "queue" {}
    [ { op := .addAt "work" .null { repeatOptions := some { schedule := .every 5 } } 0 "first" },
      { op := .claimNext "worker" 100 0 "lease" } ]

/-- A completion under another token fails, and the one under the lease has its successor. -/
theorem refused_operation_leaves_claimedRepeat
    : (∃ error,
        (perform noCron .first "queue" claimedRepeat
            (.completeJob "first" "other" .null 1 "next")).2 = .error error
        ∧ (perform noCron .first "queue" claimedRepeat
            (.completeJob "first" "other" .null 1 "next")).1 = claimedRepeat)
      ∧ ∃ job,
          claimedRepeat.requireCompletable "first" "lease" = .ok job
          ∧ ∀ error,
              nextRepeatJob noCron (InMemoryJobQueueState.completedJob job .null 1) 1 "next"
              ≠ .error error := by
  have reached : Reachable noCron "queue" claimedRepeat := reaches_serve (by decide +kernel)
  obtain ⟨leaves, schedules⟩ := refused_operation_leaves_state reached
  constructor
  · have refused
        : (perform noCron .first "queue" claimedRepeat
            (.completeJob "first" "other" .null 1 "next")).2.isOk = false := by
      decide +kernel
    cases outcome
        : (perform noCron .first "queue" claimedRepeat
            (.completeJob "first" "other" .null 1 "next")).2 with
    | ok =>
        rw [outcome] at refused
        cases refused
    | error error => exact ⟨error, rfl, leaves .first _ error rfl outcome⟩
  · have accepted : (claimedRepeat.requireCompletable "first" "lease").isOk = true := by
      decide +kernel
    cases completable : claimedRepeat.requireCompletable "first" "lease" with
    | ok job =>
        exact ⟨job, rfl, fun error => schedules "first" "lease" job .null 1 "next" error completable⟩
    | error error =>
        rw [completable] at accepted
        cases accepted

end Lane
