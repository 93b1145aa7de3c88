import Lane.Contract.LongDurations
import Lane.Life.Tally
import Lane.Notice.Exhaustion

/-! The retry budget of a job: which of its failures give it back and which one is final, over
whole runs in which the job is only claimed, failed and promoted.
-/

namespace Lane

open InMemoryJobQueueState

-----------------------------------------------------------------------------------------
-- Runs that count the failures of one job
-----------------------------------------------------------------------------------------

/-- The queue, and how many failures of the job it has accepted. -/
structure RetryRun where
  queue : InMemoryJobQueueState
  failures : Nat := 0

/-- The answer and the time of a `fail_job` call that fails this job. -/
def acceptedFailure (id : JobId) (s : InMemoryJobQueueState) : Op → Option (Job × DateTime)
  | .failJob jobId lockToken error now =>
      if jobId = id then
        (s.failJob jobId lockToken error now).2.toOption.map (fun failed => (failed, now))
      else
        none
  | _ => none

/-- One call, with the count of failures. -/
def RetryRun.next (cron : Cron) (queue : QueueName) (id : JobId) (r : RetryRun) (call : Call)
    : RetryRun :=
  { queue := step cron call.find queue r.queue call.op
    failures := r.failures + (acceptedFailure id r.queue call.op).toList.length }

/-- The queue as a transition system that counts the failures of one job. -/
def retrySystem (cron : Cron) (queue : QueueName) (id : JobId)
    : LabelledSystem RetryRun Call where
  Step r call t := FreshIds r.queue call.op ∧ t = r.next cron queue id call

/-- The job is only claimed, failed with `fail_job` and promoted: every other call leaves its
attempts, its policy and its activity alone.
-/
def OnlyRetried (cron : Cron) (queue : QueueName) (id : JobId) (s : InMemoryJobQueueState)
    (call : Call)
    : Prop :=
  match call.op with
  | .claimNext _ _ _ _ => True
  | .promote _ _ => True
  | .promoteDueJobs _ => True
  | .failJob jobId _ _ _ =>
      jobId = id ∨ (step cron call.find queue s call.op).tally id = s.tally id
  | .failJobDiscardingRetry jobId lockToken error now =>
      (jobId = id →
        (s.failJobDiscardingRetry jobId lockToken error now).2.toOption = none)
        ∧ (step cron call.find queue s call.op).tally id = s.tally id
  | _ => (step cron call.find queue s call.op).tally id = s.tally id

-----------------------------------------------------------------------------------------
-- What the budget promises
-----------------------------------------------------------------------------------------

/-- A failure that gives the job back for its next attempt. -/
structure GivesBack (id : JobId) (policy : RetryPolicy) (old : List JobEvent) (attempt : Nat)
    (failed : Job) (now : DateTime) (after : InMemoryJobQueueState)
    : Prop where
  state : failed.state = .delayed
  stored : after.jobs.get id = some failed
  scheduled : failed.scheduledAt = now + policy.delayForAttempt attempt
  capped : policy.delayForAttempt attempt ≤ policy.maxDelay
  silent : after.Silent id old

/-- The final failure, which is reported as such. -/
structure Exhausts (id : JobId) (attempt : Nat) (failed : Job) (now : DateTime)
    (after : InMemoryJobQueueState)
    : Prop where
  state : failed.state = .failed
  finished : failed.finishedAt = some now
  reported
    : ∃ entry ∈ after.events,
        entry.ReportsExhaustion id
        ∧ entry.timestamp = now
        ∧ entry.fields = [("attemptsMade", .number attempt)]

/-- The first failures within the budget give the job back, the next one is final, and no
other call reports exhausted retries.
-/
def KeepsBudget (id : JobId) (policy : RetryPolicy) (old : List JobEvent) (r : RetryRun)
    (call : Call) (t : RetryRun)
    : Prop :=
  match acceptedFailure id r.queue call.op with
  | none => r.failures ≤ policy.maxRetries → t.queue.Silent id old
  | some (failed, now) =>
      (r.failures < policy.maxRetries →
        GivesBack id policy old (r.failures + 1) failed now t.queue)
      ∧ (r.failures = policy.maxRetries → Exhausts id (r.failures + 1) failed now t.queue)

/-- The attempts can be counted, and the backoff ends at a representable time. -/
def WithinRange (id : JobId) (policy : RetryPolicy) (r : RetryRun) (call : Call) : Prop :=
  match call.op with
  | .failJob jobId lockToken _ now =>
      jobId = id → (r.queue.requireOwnedActive jobId lockToken "fail").toOption.isSome →
        (r.failures < policy.maxRetries →
          Fits now (policy.delayForAttempt (r.failures + 1))
            ∨ policy.delayForAttempt (r.failures + 1) = 0)
        ∧ (r.failures = policy.maxRetries → r.failures < u32Max)
  | _ => True

-----------------------------------------------------------------------------------------
-- Accepted and rejected failures
-----------------------------------------------------------------------------------------

section Failures

variable {s : InMemoryJobQueueState} {id jobId : JobId} {lockToken : JobLockToken}
  {error : String} {now : DateTime} {allowRetry : Bool} {job failed : Job}

theorem failActiveJob_accepted (accepted : s.requireOwnedActive jobId lockToken "fail" = .ok job)
    : (s.failActiveJob jobId lockToken error now allowRetry).2
      = .ok (failedJob job error now allowRetry) := by
  unfold failActiveJob
  simp only [accepted]

/-- A rejected failure leaves the queue as it was. -/
theorem failActiveJob_rejected
    (rejected : (s.failActiveJob jobId lockToken error now allowRetry).2.toOption = none)
    : (s.failActiveJob jobId lockToken error now allowRetry).1 = s := by
  cases accepted : s.requireOwnedActive jobId lockToken "fail" with
  | error refusal =>
      unfold failActiveJob
      simp only [accepted]
  | ok job =>
      rw [failActiveJob_accepted accepted] at rejected
      cases rejected

/-- An accepted failure of the job: what was stored and what is answered. -/
theorem acceptedFailure_some {op : Op} (accepted : acceptedFailure id s op = some (failed, now))
    : ∃ lockToken error job,
        op = .failJob id lockToken error now
        ∧ s.requireOwnedActive id lockToken "fail" = .ok job
        ∧ failed = failedJob job error now true := by
  cases op with
  | failJob jobId lockToken error time =>
      simp only [acceptedFailure] at accepted
      split at accepted
      · next same =>
          subst same
          obtain ⟨answer, answered, both⟩ := Option.map_eq_some_iff.mp accepted
          obtain ⟨rfl, rfl⟩ := Prod.mk.inj both
          cases owned : s.requireOwnedActive jobId lockToken "fail" with
          | error refusal =>
              simp only [failJob, failActiveJob, owned] at answered
              cases answered
          | ok job =>
              rw [failJob, failActiveJob_accepted owned] at answered
              exact ⟨lockToken, error, job, rfl, owned, (Option.some.inj answered).symm⟩
      · cases accepted
  | _ => cases accepted

/-- A `fail_job` call on the job that is not counted was rejected. -/
theorem failJob_rejected
    (rejected : acceptedFailure id s (.failJob id lockToken error now) = none)
    : (s.failJob id lockToken error now).1 = s
      ∧ (s.requireOwnedActive id lockToken "fail").toOption = none := by
  simp only [acceptedFailure, if_true, Option.map_eq_none_iff] at rejected
  refine ⟨failActiveJob_rejected rejected, ?_⟩
  cases owned : s.requireOwnedActive id lockToken "fail" with
  | error refusal => rfl
  | ok job =>
      rw [failJob, failActiveJob_accepted owned] at rejected
      cases rejected

@[simp] theorem failedJob_attemptsMade
    : (failedJob job error now allowRetry).attemptsMade = job.attemptsMade := by
  unfold failedJob
  simp only
  split <;> rfl

theorem failedJob_retried (again : shouldRetry job = true)
    : (failedJob job error now true).scheduledAt
      = addDuration now (job.options.retryPolicy.delayForAttempt job.attemptsMade) :=
  (SetBy.backoff job error again rfl).eq

theorem failedJob_final (final : shouldRetry job = false)
    : (failedJob job error now true).finishedAt = some now := by
  have notAgain : shouldRetry { job with
      workerId := none
      lockToken := none
      leaseExpiresAt := none
      deferredFailure := none
      failedReason := some error } = false := final
  simp only [failedJob, notAgain, Bool.and_false, Bool.false_eq_true, if_false]

/-- A failure that is retried stores its answer and emits one event. -/
theorem failJob_retried (accepted : s.requireOwnedActive id lockToken "fail" = .ok job)
    (again : shouldRetry job = true)
    : (s.failJob id lockToken error now).1.jobs.get id = some (failedJob job error now true) := by
  have sameId : (failedJob job error now true).id = id :=
    failedJob_ties.id.trans (JobMap.get_id (requireOwnedActive_ok accepted).1)
  have state := failedJob_state job error now true
  simp only [failsTerminally, again, Bool.and_self, Bool.not_true, Bool.false_eq_true,
    if_false] at state
  unfold failJob failActiveJob
  simp only [accepted]
  generalize failedJob job error now true = failed at sameId state ⊢
  have notFailed : failed.state ≠ .failed := by simp [state]
  have notExhausted : ¬ retriesExhausted failed = true := by simp [retriesExhausted, state]
  simp only [if_neg notFailed, if_neg notExhausted]
  rw [jobs_of_tables (emitEventLocked_tables _ _ _ _ _ _)]
  simp only [setJob, JobMap.get_insert, sameId, if_true]

/-- The tally of an active job that the caller owns. -/
theorem tally_of_owned (accepted : s.requireOwnedActive id lockToken "fail" = .ok job)
    : s.tally id = some job.tally ∧ job.tally.active = true := by
  obtain ⟨found, active, _⟩ := requireOwnedActive_ok accepted
  exact ⟨tally_of_get found, by simp [Job.tally, active]⟩

end Failures

-----------------------------------------------------------------------------------------
-- The count of attempts
-----------------------------------------------------------------------------------------

/-- The attempts of the job are its failures so far, and the one that is going on. -/
structure Counts (id : JobId) (policy : RetryPolicy) (old : List JobEvent) (r : RetryRun) : Prop where
  tally
    : ∃ active : Bool,
        r.queue.tally id
        = some { attempts := min (r.failures + active.toNat) u32Max, policy, active }
  silent : r.queue.Silent id old

namespace Counts

variable {cron : Cron} {queue : QueueName} {id : JobId} {policy : RetryPolicy}
  {old : List JobEvent} {r : RetryRun} {call : Call}

/-- What a call leaves of the tally that it does not count. -/
theorem tally_uncounted (counts : Counts id policy old r)
    (only : OnlyRetried cron queue id r.queue call)
    (uncounted : acceptedFailure id r.queue call.op = none)
    : ∃ active : Bool,
        (step cron call.find queue r.queue call.op).tally id
        = some { attempts := min (r.failures + active.toNat) u32Max, policy, active } := by
  obtain ⟨active, tally⟩ := counts.tally
  have kept (same : (step cron call.find queue r.queue call.op).tally id = r.queue.tally id)
      : ∃ active : Bool,
          (step cron call.find queue r.queue call.op).tally id
          = some { attempts := min (r.failures + active.toNat) u32Max, policy, active } :=
    ⟨active, same.trans tally⟩
  obtain ⟨op, find⟩ := call
  cases op with
  | claimNext workerId leaseFor now lockToken =>
      rcases tally_claimNext r.queue workerId leaseFor now lockToken id with same | claimed
      · exact kept same
      · obtain ⟨before, found, idle, after⟩ := claimed
        rw [tally] at found
        obtain rfl := Option.some.inj found
        obtain rfl : active = false := idle
        refine ⟨true, after.trans ?_⟩
        simp only [Tally.claimed, saturatingSucc32, Bool.toNat_false, Bool.toNat_true]
        congr 2
        omega
  | promote jobId now => exact kept (tally_promote r.queue jobId now id)
  | promoteDueJobs now => exact kept (tally_promoteDueLocked r.queue now id)
  | failJob jobId lockToken error now =>
      rcases only with same | same
      · subst same
        exact kept (congrArg (InMemoryJobQueueState.tally · jobId) (failJob_rejected uncounted).1)
      · exact kept same
  | failJobDiscardingRetry jobId lockToken error now => exact kept only.2
  | _ => exact kept only

/-- A call that is not counted reports no exhausted retries. -/
theorem silent_uncounted (counts : Counts id policy old r)
    (only : OnlyRetried cron queue id r.queue call)
    (uncounted : acceptedFailure id r.queue call.op = none)
    : (step cron call.find queue r.queue call.op).Silent id old := by
  obtain ⟨op, find⟩ := call
  by_cases fails : op.failedId = some id
  · have same : step cron find queue r.queue op = r.queue := by
      cases op with
      | failJob jobId lockToken error now =>
          obtain rfl := Option.some.inj fails
          exact (failJob_rejected uncounted).1
      | failJobDiscardingRetry jobId lockToken error now =>
          exact failActiveJob_rejected (only.1 (Option.some.inj fails))
      | _ => cases fails
    rw [same]
    exact counts.silent
  · exact counts.silent.step cron find queue fails

theorem next_uncounted (counts : Counts id policy old r)
    (only : OnlyRetried cron queue id r.queue call)
    (uncounted : acceptedFailure id r.queue call.op = none)
    : Counts id policy old (r.next cron queue id call) := by
  have same : (r.next cron queue id call).failures = r.failures := by
    simp [RetryRun.next, uncounted]
  constructor
  · rw [same]
    exact counts.tally_uncounted only uncounted
  · exact counts.silent_uncounted only uncounted

variable {lockToken : JobLockToken} {error : String} {now : DateTime} {job : Job}

/-- A failing job carries its attempt and its policy. -/
theorem of_owned (counts : Counts id policy old r)
    (owned : r.queue.requireOwnedActive id lockToken "fail" = .ok job)
    : job.attemptsMade = min (r.failures + 1) u32Max ∧ job.options.retryPolicy = policy := by
  obtain ⟨active, tally⟩ := counts.tally
  obtain ⟨found, isActive⟩ := tally_of_owned owned
  have same := Option.some.inj (found.symm.trans tally)
  have activity : job.tally.active = active := by rw [same]
  obtain rfl : active = true := activity.symm.trans isActive
  exact ⟨congrArg Tally.attempts same, congrArg Tally.policy same⟩

/-- Within the budget a failure is retried. -/
theorem retries (counts : Counts id policy old r) (typed : policy.maxRetries ≤ u32Max)
    (within : r.failures < policy.maxRetries)
    (owned : r.queue.requireOwnedActive id lockToken "fail" = .ok job)
    : shouldRetry job = true ∧ job.attemptsMade = r.failures + 1 := by
  obtain ⟨attempts, samePolicy⟩ := counts.of_owned owned
  have counted : job.attemptsMade = r.failures + 1 := by omega
  refine ⟨?_, counted⟩
  simp only [shouldRetry, samePolicy, counted, Bool.and_eq_true, decide_eq_true_eq]
  omega

/-- A failure within the budget keeps the count. -/
theorem next_counted (counts : Counts id policy old r) (typed : policy.maxRetries ≤ u32Max)
    (within : r.failures < policy.maxRetries) {failed : Job}
    (counted : acceptedFailure id r.queue call.op = some (failed, now))
    : Counts id policy old (r.next cron queue id call) := by
  obtain ⟨lockToken, error, job, isFail, owned, _⟩ := acceptedFailure_some counted
  obtain ⟨again, attempts⟩ := counts.retries typed within owned
  have onceMore : (r.next cron queue id call).failures = r.failures + 1 := by
    simp [RetryRun.next, counted]
  have stepped
      : step cron call.find queue r.queue call.op = (r.queue.failJob id lockToken error now).1 := by
    rw [isFail]
    rfl
  have state := failedJob_state job error now true
  simp only [failsTerminally, again, Bool.and_self, Bool.not_true, Bool.false_eq_true,
    if_false] at state
  constructor
  · refine ⟨false, ?_⟩
    rw [onceMore]
    simp only [RetryRun.next, stepped]
    rw [tally_of_get (failJob_retried owned again)]
    simp only [Job.tally, state, failedJob_attemptsMade, failedJob_ties.options, attempts,
      (counts.of_owned owned).2, Bool.toNat_false]
    congr 2
    omega
  · simp only [RetryRun.next, stepped]
    refine counts.silent.failActiveJob id lockToken error now true ?_
    intro other owns
    rw [owned] at owns
    obtain rfl := Except.ok.inj owns
    exact .inr (by simp [retriesExhausted, state])

end Counts

/-- Along a run the count is right as long as the budget is not used up. -/
theorem counts_of_run {cron : Cron} {queue : QueueName} {id : JobId} {policy : RetryPolicy}
    (typed : policy.maxRetries ≤ u32Max) {start : InMemoryJobQueueState}
    (starts : start.tally id = some { attempts := 0, policy, active := false }) {r : RetryRun}
    (run
      : (retrySystem cron queue id).Run (fun r call => OnlyRetried cron queue id r.queue call)
          { queue := start } r)
    (within : r.failures ≤ policy.maxRetries)
    : Counts id policy start.events r := by
  refine run.invariant (fun r => r.failures ≤ policy.maxRetries → Counts id policy start.events r)
    ?_ ?_ within
  · intro _
    refine ⟨⟨false, starts.trans ?_⟩, fun entry member _ => member⟩
    simp
  · intro r call t counts only stepped inside
    obtain ⟨_, rfl⟩ := stepped
    cases counted : acceptedFailure id r.queue call.op with
    | none =>
        have same : (r.next cron queue id call).failures = r.failures := by
          simp [RetryRun.next, counted]
        exact (counts (same ▸ inside)).next_uncounted only counted
    | some failure =>
        have onceMore : (r.next cron queue id call).failures = r.failures + 1 := by
          simp [RetryRun.next, counted]
        rw [onceMore] at inside
        exact (counts (by omega)).next_counted typed (by omega) counted

-----------------------------------------------------------------------------------------
-- The two kinds of failures
-----------------------------------------------------------------------------------------

theorem addDuration_eq_iff {now : DateTime} {duration : Duration}
    : addDuration now duration = now + duration ↔ Fits now duration ∨ duration = 0 := by
  by_cases fits : Fits now duration
  · exact iff_of_true (addDuration_of_fits fits) (.inl fits)
  · rw [addDuration_of_not_fits fits]
    constructor
    · intro same
      have zero : (duration : Int) = 0 := by
        have shifted : now + (0 : Int) = now + duration := by simpa using same
        exact (Int.add_left_cancel shifted).symm
      exact .inr (Int.ofNat_eq_zero.mp zero)
    · intro either
      obtain rfl := either.resolve_left fits
      simp

theorem RetryPolicy.delayForAttempt_le (policy : RetryPolicy) (attempt : Nat)
    : policy.delayForAttempt attempt ≤ policy.maxDelay := by
  unfold delayForAttempt
  split
  · exact Nat.zero_le _
  · exact Nat.min_le_right _ _

section Failures

variable {id : JobId} {policy : RetryPolicy} {old : List JobEvent} {r : RetryRun}
  {lockToken : JobLockToken} {error : String} {now : DateTime} {job : Job}

/-- A failure within the budget gives the job back, unless its backoff overflows. -/
theorem Counts.givesBack_iff (counts : Counts id policy old r)
    (typed : policy.maxRetries ≤ u32Max) (within : r.failures < policy.maxRetries)
    (owned : r.queue.requireOwnedActive id lockToken "fail" = .ok job)
    : GivesBack id policy old (r.failures + 1) (failedJob job error now true) now
        (r.queue.failJob id lockToken error now).1
      ↔ Fits now (policy.delayForAttempt (r.failures + 1))
        ∨ policy.delayForAttempt (r.failures + 1) = 0 := by
  obtain ⟨again, attempts⟩ := counts.retries typed within owned
  have scheduled : (failedJob job error now true).scheduledAt
      = addDuration now (policy.delayForAttempt (r.failures + 1)) := by
    rw [failedJob_retried again, attempts, (counts.of_owned owned).2]
  have state := failedJob_state job error now true
  simp only [failsTerminally, again, Bool.and_self, Bool.not_true, Bool.false_eq_true,
    if_false] at state
  rw [← addDuration_eq_iff, ← scheduled]
  constructor
  · exact fun back => back.scheduled
  · intro sum
    refine ⟨state, failJob_retried owned again, sum, policy.delayForAttempt_le _, ?_⟩
    refine counts.silent.failActiveJob id lockToken error now true ?_
    intro other owns
    rw [owned] at owns
    obtain rfl := Except.ok.inj owns
    exact .inr (by simp [retriesExhausted, state])

/-- The failure after the budget is final, unless the count of attempts is saturated. -/
theorem Counts.exhausts_iff (counts : Counts id policy old r)
    (typed : policy.maxRetries ≤ u32Max) (last : r.failures = policy.maxRetries)
    (owned : r.queue.requireOwnedActive id lockToken "fail" = .ok job)
    : Exhausts id (r.failures + 1) (failedJob job error now true) now
        (r.queue.failJob id lockToken error now).1
      ↔ r.failures < u32Max := by
  obtain ⟨attempts, samePolicy⟩ := counts.of_owned owned
  have state := failedJob_state job error now true
  constructor
  · intro exhausts
    by_contra saturated
    have again : shouldRetry job = true := by
      have positive : 0 < u32Max := by decide
      simp only [shouldRetry, samePolicy, attempts, Bool.and_eq_true, decide_eq_true_eq]
      omega
    have failed := exhausts.state
    rw [state] at failed
    simp [failsTerminally, again] at failed
  · intro countable
    have counted : job.attemptsMade = r.failures + 1 := by omega
    have final : shouldRetry job = false := by
      simp only [shouldRetry, samePolicy, counted, Bool.and_eq_false_iff, decide_eq_false_iff_not]
      omega
    simp only [failsTerminally, final, Bool.and_false, Bool.not_false, if_true] at state
    have exhausted : retriesExhausted (failedJob job error now true) = true := by
      simp only [retriesExhausted, state, beq_self_eq_true, failedJob_attemptsMade,
        failedJob_ties.options, samePolicy, counted, Bool.true_and, decide_eq_true_eq]
      omega
    refine ⟨state, failedJob_final final, ?_⟩
    have reported := reported_failActiveJob owned exhausted
    rwa [failedJob_attemptsMade, counted] at reported

end Failures

-----------------------------------------------------------------------------------------
-- The contract
-----------------------------------------------------------------------------------------

/-- One retry after a fixed backoff, as `RetryPolicy::fixed` makes it. -/
def oneRetry (delay : Duration) : RetryPolicy :=
  { maxRetries := 1, initialDelay := delay, maxDelay := delay, multiplier := 1 }

/-- A queue with one job under such a policy. -/
def mailed (delay : Duration) : InMemoryJobQueueState :=
  step noCron .first "mail" {} (.addAt "send" .null { retryPolicy := oneRetry delay } 0 "a")

def mailClaim : Call := { op := .claimNext "worker" 1000000000 0 "token" }

def mailFailure : Call := { op := .failJob "a" "token" "refused" 5 }

/-- The job is claimed once. -/
def mailClaimed (delay : Duration) : RetryRun :=
  ({ queue := mailed delay } : RetryRun).next noCron "mail" "a" mailClaim

set_option maxRecDepth 4000 in
theorem tally_mailed (delay : Duration)
    : (mailed delay).tally "a"
      = some { attempts := 0, policy := oneRetry delay, active := false } := rfl

theorem run_mailClaimed (delay : Duration)
    : (retrySystem noCron "mail" "a").Run
        (fun r call => OnlyRetried noCron "mail" "a" r.queue call) { queue := mailed delay }
        (mailClaimed delay) :=
  .single (a := mailClaim) trivial ⟨⟨.nil, by simp [mailClaim, Op.generatedIds]⟩, rfl⟩

theorem step_mailFailure (delay : Duration)
    : (retrySystem noCron "mail" "a").Step (mailClaimed delay) mailFailure
        ((mailClaimed delay).next noCron "mail" "a" mailFailure) :=
  ⟨⟨.nil, by simp [mailFailure, Op.generatedIds]⟩, rfl⟩

/-- Ten thousand million million seconds, which is more than a chrono duration holds. -/
def farDelay : Duration := 10000000000000000000000000

theorem farFailure
    : (acceptedFailure "a" (mailClaimed farDelay).queue mailFailure.op).map
        (fun failure => (failure.1.scheduledAt, failure.2))
      = some (5, 5) := by
  decide +kernel

end Lane
