import Lane.Life.Processing

/-! What decides about a job's retries: its attempts, its policy and whether it is active. The
promotions leave it alone, and a claim counts one attempt of the claimed job.
-/

namespace Lane

/-- What a record says about the job's retries. -/
structure Tally where
  attempts : Nat
  policy : RetryPolicy
  active : Bool

def Job.tally (job : Job) : Tally :=
  { attempts := job.attemptsMade
    policy := job.options.retryPolicy
    active := job.state == .active }

/-- The tally of a job that is claimed: one attempt more. -/
def Tally.claimed (tally : Tally) : Tally :=
  { tally with attempts := saturatingSucc32 tally.attempts, active := true }

namespace InMemoryJobQueueState

/-- The tally of a retained job. -/
def tally (s : InMemoryJobQueueState) (id : JobId) : Option Tally := (s.jobs.get id).map Job.tally

variable {s t : InMemoryJobQueueState} {id : JobId} {job : Job} {now : DateTime}

theorem tally_of_get (found : s.jobs.get id = some job) : s.tally id = some job.tally := by
  rw [tally, found, Option.map_some]

theorem tally_eq_some {tally : Tally}
    : s.tally id = some tally ↔ ∃ job, s.jobs.get id = some job ∧ job.tally = tally := by
  rw [InMemoryJobQueueState.tally, Option.map_eq_some_iff]

theorem tally_of_jobs (same : t.jobs = s.jobs) : t.tally id = s.tally id := by
  rw [tally, same, tally]

theorem tally_emitEventLocked (s : InMemoryJobQueueState) (event : String) (job : Option Job)
    (prev : Option JobState) (timestamp : DateTime) (fields : List (String × Value))
    : (s.emitEventLocked event job prev timestamp fields).tally id = s.tally id :=
  tally_of_jobs (jobs_of_tables (emitEventLocked_tables _ _ _ _ _ _))

theorem tally_setJob (s : InMemoryJobQueueState) (job : Job) (id : JobId)
    : (s.setJob job).tally id = if id = job.id then some job.tally else s.tally id := by
  unfold tally setJob
  rw [JobMap.get_insert]
  split <;> rfl

-----------------------------------------------------------------------------------------
-- Promotions
-----------------------------------------------------------------------------------------

/-- A promotion leaves a job's tally alone unless the job is active and its turn comes. -/
theorem tally_promoteDueJob (promoted : Nat) (due : Job)
    (idle : ∀ job, s.jobs.get id = some job → job.state = .active → id ≠ due.id)
    : (promoteDueJob now (s, promoted) due).1.tally id = s.tally id := by
  unfold promoteDueJob nextWaitingSequence
  cases found : s.jobs.get due.id with
  | none => simp only [found]; rfl
  | some current =>
      simp only [found]
      rw [tally_emitEventLocked, tally_setJob]
      have same := JobMap.get_id found
      split
      · next isDue =>
          have isDue : id = current.id := isDue
          have held : s.jobs.get id = some current := by rw [isDue, same, found]
          have notActive : current.state ≠ .active :=
            fun active => idle current held active (isDue.trans same)
          rw [tally_of_get held]
          simp [Job.tally, notActive]
      · rfl

/-- Promotions in a row, by induction on the due jobs. -/
theorem tally_promoteDueJobs {dueJobs : List Job} (promoted : Nat)
    (idle : ∀ job, s.jobs.get id = some job → job.state = .active → id ∉ dueJobs.map Job.id)
    : (dueJobs.foldl (promoteDueJob now) (s, promoted)).1.tally id = s.tally id := by
  induction dueJobs generalizing s promoted with
  | nil => rfl
  | cons due rest ih =>
      have first : (promoteDueJob now (s, promoted) due).1.tally id = s.tally id := by
        refine tally_promoteDueJob promoted due ?_
        intro job found active same
        exact idle job found active (by simp [same])
      have later
          : ∀ job, (promoteDueJob now (s, promoted) due).1.jobs.get id = some job →
              job.state = .active → id ∉ rest.map Job.id := by
        intro job found active member
        rw [tally_of_get found] at first
        obtain ⟨before, held, same⟩ := tally_eq_some.mp first.symm
        have wasActive : before.state = .active := by
          have both := congrArg Tally.active same
          simpa [Job.tally, active] using both
        exact idle before held wasActive (by simp [member])
      rw [List.foldl_cons]
      generalize promoteDueJob now (s, promoted) due = promoting at first later ⊢
      exact (ih promoting.2 later).trans first

/-- Only delayed jobs are promoted. -/
theorem tally_promoteDueLocked (s : InMemoryJobQueueState) (now : DateTime) (id : JobId)
    : (s.promoteDueLocked now).1.tally id = s.tally id := by
  refine @tally_promoteDueJobs s id now (s.dueJobs now) 0 ?_
  intro job found active member
  obtain ⟨due, isDue, same⟩ := List.mem_map.mp member
  obtain ⟨held, delayed, _⟩ := mem_dueJobs.mp isDue
  rw [same, found] at held
  rw [Option.some.inj held, delayed] at active
  cases active

theorem tally_promote (s : InMemoryJobQueueState) (jobId : JobId) (now : DateTime) (id : JobId)
    : (s.promote jobId now).1.tally id = s.tally id := by
  unfold promote
  split
  · rfl
  · next current found =>
      split
      · rfl
      · next delayed =>
          have same := JobMap.get_id found
          simp only [nextWaitingSequence]
          rw [tally_emitEventLocked, tally_setJob]
          split
          · next isPromoted =>
              have isPromoted : id = current.id := isPromoted
              rw [isPromoted, same, tally_of_get found]
              simp only [ne_eq, not_not] at delayed
              simp [Job.tally, delayed]
          · rfl

-----------------------------------------------------------------------------------------
-- Claims
-----------------------------------------------------------------------------------------

/-- A claim leaves a job's tally alone, or counts an attempt of the idle job. -/
theorem tally_claimNext (s : InMemoryJobQueueState) (workerId : JobWorkerId)
    (leaseFor : Duration) (now : DateTime) (lockToken : JobLockToken) (id : JobId)
    : (s.claimNext workerId leaseFor now lockToken).1.tally id = s.tally id
      ∨ ∃ tally, s.tally id = some tally ∧ tally.active = false
          ∧ (s.claimNext workerId leaseFor now lockToken).1.tally id = some tally.claimed := by
  have promoted := tally_promoteDueLocked s now id
  unfold claimNext
  split
  · exact .inl rfl
  · simp only
    split
    · exact .inl promoted
    · next job least =>
        obtain ⟨found, waiting⟩ := firstWaiting_some least
        rw [tally_emitEventLocked, tally_setJob]
        split
        · next isClaimed =>
            have isClaimed : id = job.id := isClaimed
            rw [isClaimed] at promoted ⊢
            rw [tally_of_get found] at promoted
            refine .inr ⟨job.tally, promoted.symm, ?_, rfl⟩
            simp [Job.tally, waiting]
        · exact .inl promoted

end InMemoryJobQueueState

end Lane
