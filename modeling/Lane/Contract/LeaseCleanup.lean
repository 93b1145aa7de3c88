import Lane.Board.Management
import Lane.Contract.LeaseRegistry

/-! The entries of the shared lease registry end with their executions, unless a processor
panics under an entry of its own: nothing unregisters that one, and the renewal loop goes on
with it.
-/

namespace Lane

namespace JobWorker

variable {β : Type} {calls : JobQueueBackend β} {config : JobWorkerConfig}
  {worker after : JobWorker β}

/-- Every entry belongs to an execution in flight. -/
def LeasesEnd (worker : JobWorker β) : Prop :=
  ∀ jobId lease, worker.activeLeases.lookup jobId = some lease →
    { jobId, lockToken := lease.lockToken, leaseLost := lease.leaseLost } ∈ worker.inFlight

/-- The renewal loop copies the leases of executions in flight only. -/
def RenewsInFlight (worker : JobWorker β) : Prop :=
  ∀ renewal ∈ worker.activeLeaseRenewals,
    ∃ context ∈ worker.inFlight, context.renewal = renewal

/-- A processor panics while the entry of its job is that of its own execution. -/
def Strands (worker after : JobWorker β) : Prop :=
  ∃ execution ∈ worker.executions,
    execution.stage = .processing
    ∧ worker.activeLeases.lookup execution.context.jobId = some execution.context.lease
    ∧ after = { worker.finish execution with loops := worker.loops - 1 }

/-- A worker of which no step strands an entry. -/
def orderlySystem (calls : JobQueueBackend β) (config : JobWorkerConfig)
    : LabelledSystem (JobWorker β) Label where
  Step worker label after := Step calls config worker label after ∧ ¬ worker.Strands after

-----------------------------------------------------------------------------------------
-- What a step does to the executions
-----------------------------------------------------------------------------------------

/-- A step registers a new execution, ends one with or without its entry, or leaves both the
executions in flight and the entries as they are.
-/
theorem Step.courses {label : Label} (step : Step calls config worker label after)
    : (after.inFlight.Perm worker.inFlight
        ∧ after.activeLeases = worker.activeLeases
        ∧ after.contexts = worker.contexts)
      ∨ (∃ claimed jobId lockToken,
          after = ({ worker with claimed }.begin
            (worker.newContext jobId lockToken)).registerActiveLease
              (worker.newContext jobId lockToken))
      ∨ (∃ execution ∈ worker.executions,
          after = (worker.finish execution).unregisterActiveLease execution.context.jobId)
      ∨ ∃ execution ∈ worker.executions,
          execution.stage = .processing
          ∧ after = { worker.finish execution with loops := worker.loops - 1 } := by
  cases step with
  | registers => exact .inr (.inl ⟨_, _, _, rfl⟩)
  | stops member => exact .inr (.inr (.inl ⟨_, member, rfl⟩))
  | panics member stage => exact .inr (.inr (.inr ⟨_, member, stage, rfl⟩))
  | returnsLost member => exact .inl ⟨inFlight_moveTo .stopping member, rfl, rfl⟩
  | returns member => exact .inl ⟨inFlight_moveTo .finalizing member, rfl, rfl⟩
  | finalizes member => exact .inl ⟨inFlight_moveTo .stopping member, rfl, rfl⟩
  | _ => exact .inl ⟨.refl _, rfl, rfl⟩

/-- Any other execution in flight stays in flight. -/
theorem mem_inFlight_finish {execution : Execution} {context : JobContext}
    (member : execution ∈ worker.executions) (flies : context ∈ worker.inFlight)
    (other : context ≠ execution.context)
    : context ∈ (worker.finish execution).inFlight := by
  have split := (List.perm_cons_erase member).map Execution.context
  rcases List.mem_cons.mp (split.subset flies) with same | stays
  · exact absurd same other
  · exact stays

-----------------------------------------------------------------------------------------
-- The flags of executions in flight
-----------------------------------------------------------------------------------------

/-- The executions in flight have flags of their own. -/
structure Numbered (worker : JobWorker β) : Prop where
  distinct : worker.inFlight.Nodup
  allocated : ∀ context ∈ worker.inFlight, context.leaseLost < worker.contexts.length

/-- Fewer executions in flight keep their flags. -/
theorem Numbered.of_subperm (numbered : worker.Numbered)
    (inFlight : after.inFlight.Subperm worker.inFlight)
    (contexts : after.contexts = worker.contexts)
    : after.Numbered where
  distinct := by
    obtain ⟨kept, perm, sublist⟩ := inFlight
    exact perm.nodup_iff.mp (numbered.distinct.sublist sublist)
  allocated context flies := contexts ▸ numbered.allocated context (inFlight.subset flies)

/-- A new execution has a new flag. -/
theorem Numbered.registers (numbered : worker.Numbered) (claimed : List Job) (jobId : JobId)
    (lockToken : JobLockToken)
    : Numbered
        (({ worker with claimed }.begin
          (worker.newContext jobId lockToken)).registerActiveLease
            (worker.newContext jobId lockToken)) where
  distinct := by
    apply List.nodup_cons.mpr
    refine ⟨?_, numbered.distinct⟩
    intro flies
    exact Nat.lt_irrefl _ (numbered.allocated _ flies)
  allocated context flies := by
    simp only [registerActiveLease, begin, List.length_append, List.length_singleton]
    rcases List.mem_cons.mp flies with rfl | flies
    · exact Nat.lt_succ_self _
    · exact Nat.lt_succ_of_lt (numbered.allocated context flies)

theorem Numbered.step {label : Label} (numbered : worker.Numbered)
    (step : Step calls config worker label after)
    : after.Numbered := by
  rcases step.courses with ⟨inFlight, _, contexts⟩ | ⟨claimed, jobId, lockToken, rfl⟩
    | ⟨execution, _, rfl⟩ | ⟨execution, _, _, rfl⟩
  · exact numbered.of_subperm inFlight.subperm contexts
  · exact numbered.registers claimed jobId lockToken
  · exact numbered.of_subperm (inFlight_finish worker execution).subperm rfl
  · exact numbered.of_subperm (inFlight_finish worker execution).subperm rfl

/-- The execution that is over is no longer in flight. -/
theorem Numbered.not_mem_finish {execution : Execution} (numbered : worker.Numbered)
    (member : execution ∈ worker.executions)
    : execution.context ∉ (worker.finish execution).inFlight := by
  have split := (List.perm_cons_erase member).map Execution.context
  have distinct := split.nodup_iff.mp numbered.distinct
  exact (List.nodup_cons.mp distinct).1

-----------------------------------------------------------------------------------------
-- The end of an entry
-----------------------------------------------------------------------------------------

/-- Registering adds an entry and its execution. -/
theorem LeasesEnd.registers (ends : worker.LeasesEnd) (claimed : List Job) (jobId : JobId)
    (lockToken : JobLockToken)
    : LeasesEnd
        (({ worker with claimed }.begin
          (worker.newContext jobId lockToken)).registerActiveLease
            (worker.newContext jobId lockToken)) := by
  intro other lease found
  by_cases same : other = jobId
  · subst same
    have inserted : some lease = some (worker.newContext other lockToken).lease :=
      found.symm.trans (AList.lookup_insert _)
    cases inserted
    exact List.mem_cons_self
  · have before : worker.activeLeases.lookup other = some lease :=
      (AList.lookup_insert_ne same).symm.trans found
    exact List.mem_cons_of_mem _ (ends other lease before)

/-- An execution that stops takes the entry of its job with it. -/
theorem LeasesEnd.stops {execution : Execution} (ends : worker.LeasesEnd)
    (member : execution ∈ worker.executions)
    : LeasesEnd
        ((worker.finish execution).unregisterActiveLease execution.context.jobId) := by
  intro jobId lease found
  by_cases same : jobId = execution.context.jobId
  · subst same
    cases (AList.lookup_erase _ _).symm.trans found
  · have before : worker.activeLeases.lookup jobId = some lease :=
      (AList.lookup_erase_ne same).symm.trans found
    have other := ends jobId lease before
    exact mem_inFlight_finish member other (fun own => same (congrArg JobContext.jobId own))

/-- An execution whose entry is not its own any more takes none of the entries with it. -/
theorem LeasesEnd.panics {execution : Execution} (ends : worker.LeasesEnd)
    (member : execution ∈ worker.executions)
    (unregistered
      : worker.activeLeases.lookup execution.context.jobId ≠ some execution.context.lease)
    : LeasesEnd { worker.finish execution with loops := worker.loops - 1 } := by
  intro jobId lease found
  refine mem_inFlight_finish member (ends jobId lease found) ?_
  intro own
  apply unregistered
  rw [← own]
  exact found

theorem LeasesEnd.step {label : Label} (ends : worker.LeasesEnd)
    (step : Step calls config worker label after) (orderly : ¬ worker.Strands after)
    : after.LeasesEnd := by
  rcases step.courses with ⟨inFlight, activeLeases, _⟩ | ⟨claimed, jobId, lockToken, rfl⟩
    | ⟨execution, member, rfl⟩ | ⟨execution, member, stage, rfl⟩
  · intro jobId lease found
    rw [activeLeases] at found
    exact inFlight.symm.subset (ends jobId lease found)
  · exact ends.registers claimed jobId lockToken
  · exact ends.stops member
  · apply ends.panics member
    intro registered
    exact orderly ⟨execution, member, stage, registered, rfl⟩

/-- The entry of a processor that panicked stays behind. -/
theorem Numbered.not_leasesEnd (numbered : worker.Numbered) (strands : worker.Strands after)
    : ¬ after.LeasesEnd := by
  obtain ⟨execution, member, _, registered, rfl⟩ := strands
  intro ends
  exact numbered.not_mem_finish member (ends execution.context.jobId _ registered)

/-- The leases that the renewal loop copies are those of the entries. -/
theorem LeasesEnd.renewsInFlight (ends : worker.LeasesEnd)
    : worker.RenewsInFlight := by
  intro renewal copied
  obtain ⟨entry, member, rfl⟩ := List.mem_map.mp copied
  have found : worker.activeLeases.lookup entry.1 = some entry.2 :=
    AList.mem_lookup_iff.mpr member
  exact ⟨_, ends entry.1 entry.2 found, rfl⟩

end JobWorker

-----------------------------------------------------------------------------------------
-- Every run
-----------------------------------------------------------------------------------------

/-- Over any backend, and for any order of the steps of the loops: as long as no processor panics
under its own entry, every entry belongs to an execution in flight, and so does every lease that
the renewal loop copies. The first such panic, and no other step, leaves an entry behind.
-/
theorem lease_entries_end_with_executions {β : Type} {calls : JobQueueBackend β}
    {config : JobWorkerConfig} {backend : β} {worker : JobWorker β}
    (run : (JobWorker.orderlySystem calls config).Reaches (JobWorker.started config backend)
      worker)
    : worker.LeasesEnd
      ∧ worker.RenewsInFlight
      ∧ ∀ label after, JobWorker.Step calls config worker label after →
          (after.LeasesEnd ↔ ¬ worker.Strands after) := by
  have sound : worker.Numbered ∧ worker.LeasesEnd := by
    refine run.invariant (fun worker => worker.Numbered ∧ worker.LeasesEnd) ?_ ?_
    · refine ⟨⟨List.nodup_nil, ?_⟩, ?_⟩
      · intro context flies
        cases flies
      · intro jobId lease found
        cases found
    · intro worker label after sound _ step
      exact ⟨sound.1.step step.1, sound.2.step step.1 step.2⟩
  refine ⟨sound.2, sound.2.renewsInFlight, ?_⟩
  intro label after step
  constructor
  · intro ends strands
    exact sound.1.not_leasesEnd strands ends
  · exact sound.2.step step

/-- A job under its first lease, registered by a run that strands nothing. -/
theorem lease_entries_end_with_first
    : firstExecution.LeasesEnd
      ∧ firstExecution.RenewsInFlight
      ∧ ∀ label after,
          JobWorker.Step (inMemoryBackend noCron "queue") twoLoops firstExecution label after →
            (after.LeasesEnd ↔ ¬ firstExecution.Strands after) := by
  obtain ⟨job, claimed, named, locked, undeferred⟩ := claims_leasedJob
  have claims
      : JobWorker.Step (inMemoryBackend noCron "queue") twoLoops
          (JobWorker.started twoLoops oneJob) .other
          { JobWorker.started twoLoops oneJob with backend := leasedJob, claimed := [job] } :=
    step_claims rfl Nat.zero_lt_two ⟨0, "lease-1", claimed⟩
  have registers
      : JobWorker.Step (inMemoryBackend noCron "queue") twoLoops
          { JobWorker.started twoLoops oneJob with backend := leasedJob, claimed := [job] }
          (.registers job.id) firstExecution := by
    have step := @step_registers _ (inMemoryBackend noCron "queue") twoLoops
      (JobWorker.started twoLoops oneJob) job "lease-1" leasedJob locked undeferred
    rw [named] at step ⊢
    exact step
  have idle
      : ∀ worker after : JobWorker InMemoryJobQueueState,
          worker.executions = [] → ¬ worker.Strands after := by
    intro worker after none strands
    obtain ⟨execution, member, _⟩ := strands
    rw [none] at member
    cases member
  have run
      : (JobWorker.orderlySystem (inMemoryBackend noCron "queue") twoLoops).Reaches
          (JobWorker.started twoLoops oneJob) firstExecution :=
    .tail (.tail (.refl _) trivial ⟨claims, idle _ _ rfl⟩) trivial ⟨registers, idle _ _ rfl⟩
  exact lease_entries_end_with_executions run

-----------------------------------------------------------------------------------------
-- A processor that panics
-----------------------------------------------------------------------------------------

/-- The renewal of a lease that is still held. -/
theorem answered_renew {s : InMemoryJobQueueState} {job : Job} {jobId : JobId}
    {lockToken : JobLockToken} {leaseFor : Duration} {now : DateTime}
    (owned : s.requireOwnedActive jobId lockToken "renew lease" = .ok job)
    : answered (s.renew jobId lockToken leaseFor now)
      = (s.setJob { job with leaseExpiresAt := some (addDuration now leaseFor) }, .ok ()) := by
  simp only [InMemoryJobQueueState.renew, owned]
  rfl

/-- The job's processor panicked, and took one of the run loops with it. -/
def panickedExecution : JobWorker InMemoryJobQueueState :=
  { firstExecution.finish { context := firstContext, stage := .processing } with loops := 1 }

theorem reaches_panickedExecution
    : (JobWorker.system (inMemoryBackend noCron "queue") twoLoops).Reaches
        (JobWorker.started twoLoops {}) panickedExecution :=
  reaches_firstExecution.tail trivial (.panics List.mem_cons_self rfl)

/-- At any time the renewal loop renews the lease of the job, which nobody processes. -/
theorem reaches_renewal_after_panic (now : DateTime)
    : ∃ worker job,
        (JobWorker.system (inMemoryBackend noCron "queue") twoLoops).Reaches
            (JobWorker.started twoLoops {}) worker
          ∧ worker.inFlight = []
          ∧ worker.backend.jobs.get "job" = some job
          ∧ job.state = .active
          ∧ job.leaseExpiresAt = some (addDuration now twoLoops.leaseDuration) := by
  have wakes
      : JobWorker.Step (inMemoryBackend noCron "queue") twoLoops panickedExecution .other
          { panickedExecution with
            renewing := .renewing [firstContext.renewal] [firstContext.renewal] [] } :=
    .wakes ⟨by decide, by decide⟩ rfl (List.Perm.refl _) (List.cons_ne_nil _ _)
  have held
      : (leasedJob.requireOwnedActive "job" "lease-1" "renew lease").toOption.isSome = true := by
    decide +kernel
  cases owned : leasedJob.requireOwnedActive "job" "lease-1" "renew lease" with
  | error error =>
      rw [owned] at held
      cases held
  | ok job =>
      obtain ⟨found, active, _⟩ := InMemoryJobQueueState.requireOwnedActive_ok owned
      have renews
          : JobWorker.Step (inMemoryBackend noCron "queue") twoLoops
              { panickedExecution with
                renewing := .renewing [firstContext.renewal] [firstContext.renewal] [] } .other
              { panickedExecution with
                backend := leasedJob.setJob
                  { job with leaseExpiresAt := some (addDuration now twoLoops.leaseDuration) }
                renewing := .renewing [firstContext.renewal] [] [] } :=
        .renewsNext rfl rfl ⟨now, answered_renew owned⟩
      refine ⟨_, { job with leaseExpiresAt := some (addDuration now twoLoops.leaseDuration) },
        (reaches_panickedExecution.tail trivial wakes).tail trivial renews, rfl, ?_, active, rfl⟩
      exact (JobMap.get_insert _ _ _).trans (if_pos (JobMap.get_id found).symm)

/-- A panic leaves an entry of no execution, whose lease the renewal loop then copies and
renews: whatever the time is, the lease may last longer.
-/
theorem lease_entry_outlives_panic
    : (¬ ∀ (config : JobWorkerConfig) (worker : JobWorker InMemoryJobQueueState),
          (JobWorker.system (inMemoryBackend noCron "queue") config).Reaches
              (JobWorker.started config {}) worker
          → worker.LeasesEnd)
      ∧ (¬ ∀ (config : JobWorkerConfig) (worker : JobWorker InMemoryJobQueueState),
          (JobWorker.system (inMemoryBackend noCron "queue") config).Reaches
              (JobWorker.started config {}) worker
          → worker.RenewsInFlight)
      ∧ ∀ now, ∃ worker job,
          (JobWorker.system (inMemoryBackend noCron "queue") twoLoops).Reaches
              (JobWorker.started twoLoops {}) worker
            ∧ worker.inFlight = []
            ∧ worker.backend.jobs.get "job" = some job
            ∧ job.state = .active
            ∧ job.leaseExpiresAt = some (addDuration now twoLoops.leaseDuration) := by
  refine ⟨?_, ?_, reaches_renewal_after_panic⟩
  · intro ends
    have entry := ends twoLoops panickedExecution reaches_panickedExecution "job"
      firstContext.lease rfl
    cases entry
  · intro renews
    obtain ⟨context, flies, _⟩ := renews twoLoops panickedExecution reaches_panickedExecution
      firstContext.renewal List.mem_cons_self
    cases flies

end Lane
