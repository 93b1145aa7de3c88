import Lane.Job.Processing

/-! Long durations: where a longer duration gives a later time, and where the fallback of the
sum gives the present time instead.
-/

namespace Lane

-----------------------------------------------------------------------------------------
-- Sums that stay representable
-----------------------------------------------------------------------------------------

/-- Neither overflow exit of the sum is taken. -/
def Fits (time : DateTime) (duration : Duration) : Prop :=
  duration ≤ maxTimeDelta ∧ time + duration ≤ maxDateTime

instance (time : DateTime) (duration : Duration) : Decidable (Fits time duration) :=
  inferInstanceAs (Decidable (_ ∧ _))

open InMemoryJobQueueState

variable {time now : DateTime} {duration shorter longer : Duration}

theorem addDuration_of_fits (fits : Fits time duration)
    : addDuration time duration = time + duration := by
  rw [addDuration, durationFromStd, if_pos fits.1]
  simp only [checkedAddSigned, if_pos fits.2, Option.getD_some]

theorem addDuration_of_not_fits (overflows : ¬ Fits time duration)
    : addDuration time duration = time := by
  rw [addDuration, durationFromStd]
  by_cases small : duration ≤ maxTimeDelta
  · rw [if_pos small]
    have late : ¬ time + duration ≤ maxDateTime := fun inside => overflows ⟨small, inside⟩
    simp only [checkedAddSigned, if_neg late, Option.getD_none]
  · rw [if_neg small]

/-- A positive duration gives a later time exactly when the sum is representable. -/
theorem lt_addDuration_iff (positive : 0 < duration)
    : time < addDuration time duration ↔ Fits time duration := by
  constructor
  · intro later
    by_contra overflows
    rw [addDuration_of_not_fits overflows] at later
    exact lt_irrefl time later
  · intro fits
    rw [addDuration_of_fits fits]
    exact Int.lt_add_of_pos_right time (Int.natCast_pos.mpr positive)

/-- The sums of two durations are ordered unless only the longer one overflows. -/
theorem addDuration_le_addDuration_iff (order : shorter ≤ longer)
    : addDuration time shorter ≤ addDuration time longer
      ↔ shorter = 0 ∨ Fits time longer ∨ ¬ Fits time shorter := by
  have up : time + shorter ≤ time + longer := Int.add_le_add_left (Int.ofNat_le.mpr order) time
  by_cases fitsLonger : Fits time longer
  · have fitsShorter : Fits time shorter :=
      ⟨le_trans order fitsLonger.1, le_trans up fitsLonger.2⟩
    rw [addDuration_of_fits fitsShorter, addDuration_of_fits fitsLonger]
    exact iff_of_true up (.inr (.inl fitsLonger))
  · rw [addDuration_of_not_fits fitsLonger]
    by_cases fitsShorter : Fits time shorter
    · rw [addDuration_of_fits fitsShorter]
      constructor
      · intro back
        have zero : (shorter : Int) ≤ 0 := by simpa using back
        exact .inl (Int.ofNat_eq_zero.mp (le_antisymm zero (Int.natCast_nonneg shorter)))
      · rintro (rfl | fits | overflows)
        · simp
        · exact absurd fits fitsLonger
        · exact absurd fitsShorter overflows
    · rw [addDuration_of_not_fits fitsShorter]
      exact iff_of_true le_rfl (.inr (.inr fitsShorter))

-----------------------------------------------------------------------------------------
-- The times that durations set
-----------------------------------------------------------------------------------------

/-- A time that the queue sets by a duration from the present on. -/
inductive SetBy (now : DateTime) (duration : Duration) : DateTime → Prop
  -- when a new job becomes due
  | delay (queue : QueueName) (name : String) (payload : Value) (options : JobOptions)
    (uuid : JobId) (chosen : options.delay = some duration)
    : SetBy now duration (Job.new queue name payload options now uuid).scheduledAt
  -- until when a new job owns its deduplication key
  | timeToLive (options : JobOptions) (time : DateTime)
    (chosen
      : ∀ deduplication, options.deduplication = some deduplication
        → deduplication.ttl = some duration)
    (expires : deduplicationExpiration options now = some time)
    : SetBy now duration time
  -- when the lease of a claimed job ends, so that the job is stalled
  | lease (job : Job) (workerId : JobWorkerId) (lockToken : JobLockToken) (time : DateTime)
    (ends : (claimedJob job workerId duration now lockToken).leaseExpiresAt = some time)
    : SetBy now duration time
  -- when a failed job is tried again
  | backoff (job : Job) (error : String) (retries : shouldRetry job = true)
    (chosen : job.options.retryPolicy.delayForAttempt job.attemptsMade = duration)
    : SetBy now duration (failedJob job error now true).scheduledAt
  -- when a repeated job is due again
  | interval (cron : Cron) (options : RepeatOptions) (time : DateTime)
    (chosen : options.schedule = .every duration)
    (next : options.nextScheduledAt cron now = .ok (some time))
    : SetBy now duration time

/-- Every such time is the sum, by cases on what sets it. -/
theorem SetBy.eq (set : SetBy now duration time) : time = addDuration now duration := by
  cases set with
  | delay queue name payload options uuid chosen =>
      simp only [Job.new, chosen, Option.map_some, Option.getD_some]
  | timeToLive options time chosen expires =>
      rw [deduplicationExpiration, Option.bind_eq_some_iff] at expires
      obtain ⟨deduplication, kept, expires⟩ := expires
      rw [chosen deduplication (Option.filter_eq_some_iff.mp kept).1] at expires
      exact (Option.some.inj expires).symm
  | lease job workerId lockToken time ends => exact (Option.some.inj ends).symm
  | backoff job error retries chosen =>
      have again : shouldRetry { job with
          workerId := none
          lockToken := none
          leaseExpiresAt := none
          deferredFailure := none
          failedReason := some error } = true := retries
      simp only [failedJob, again, Bool.and_self, if_true, chosen]
  | interval cron options time chosen next =>
      rw [RepeatOptions.nextScheduledAt, chosen] at next
      exact (Option.some.inj (Except.ok.inj next)).symm

-----------------------------------------------------------------------------------------
-- The contract
-----------------------------------------------------------------------------------------

/-- A longer duration gives a time that is not earlier exactly when it is representable, or
the shorter one is no duration at all or overflows as well; a positive duration gives a later
time exactly when it is representable. The same holds of every time that a duration sets.
-/
theorem long_durations (now : DateTime) (shorter longer : Duration) (order : shorter ≤ longer)
    : (addDuration now shorter ≤ addDuration now longer
        ↔ shorter = 0 ∨ Fits now longer ∨ ¬ Fits now shorter)
      ∧ (0 < longer → now ≠ maxDateTime
        → (now < addDuration now longer ↔ Fits now longer))
      ∧ ∀ early late, SetBy now shorter early → SetBy now longer late
        → (early ≤ late ↔ shorter = 0 ∨ Fits now longer ∨ ¬ Fits now shorter) := by
  refine ⟨addDuration_le_addDuration_iff order, fun positive _ => lt_addDuration_iff positive,
    ?_⟩
  intro early late setsEarly setsLate
  rw [setsEarly.eq, setsLate.eq]
  exact addDuration_le_addDuration_iff order

/-- A delay of two seconds is due after one of one second. -/
theorem long_durations_seconds
    : (Job.new "mail" "send" .null { delay := some 1000000000 } 0 "a").scheduledAt
      ≤ (Job.new "mail" "send" .null { delay := some 2000000000 } 0 "b").scheduledAt :=
  ((long_durations 0 1000000000 2000000000 (by decide)).2.2 _ _
    (.delay "mail" "send" .null { delay := some 1000000000 } "a" rfl)
    (.delay "mail" "send" .null { delay := some 2000000000 } "b" rfl)).mpr (.inr (.inl (by decide)))

/-- The longest duration of the standard library, and one that passes the last representable
time, make a delayed job due at once, while a delay of one second does not.
-/
theorem longest_delay_is_due_at_once
    : ¬ addDuration 0 1000000000 ≤ addDuration 0 18446744073709551615999999999
      ∧ ¬ addDuration 0 1000000000 ≤ addDuration 0 9000000000000000000000
      ∧ (Job.new "mail" "send" .null { delay := some 18446744073709551615999999999 } 0 "a").state
        = .waiting
      ∧ (Job.new "mail" "send" .null { delay := some 1000000000 } 0 "b").state = .delayed := by
  decide

end Lane
