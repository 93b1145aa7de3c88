import Lane.Worker.Registry

/-! The shared lease registry of a worker: it follows the executions as long as no job is
registered while an older execution of it is in flight, and no answer to a batch reaches a lease
that the batch did not renew.
-/

namespace Lane

namespace JobWorker

variable {β : Type} {calls : JobQueueBackend β} {config : JobWorkerConfig}
  {worker after : JobWorker β}

/-- Every execution in flight has an entry with its own token. -/
def RegistryFollows (worker : JobWorker β) : Prop :=
  ∀ context ∈ worker.inFlight,
    (worker.activeLeases.lookup context.jobId).map ActiveJobLease.lockToken
      = some context.lockToken

/-- Every flag that is set is set because a renewal of its own token failed, or a whole batch. -/
def FlagsFollow (worker : JobWorker β) : Prop :=
  ∀ context ∈ worker.contexts, context.leaseLost ∈ worker.lost → worker.LostFor context

/-- A job is registered while no other execution of it is in flight, and a reported failure
meets the lease that the batch renewed, or one that is lost already.
-/
def SparesOthers (worker : JobWorker β) : Label → Prop
  | .registers jobId => ∀ context ∈ worker.inFlight, context.jobId ≠ jobId
  | .marks batch (.ok failed) =>
      ∀ jobId ∈ failed, ∀ lease, worker.activeLeases.lookup jobId = some lease →
        { jobId, lockToken := lease.lockToken } ∈ batch ∨ lease.leaseLost ∈ worker.lost
  | .marks _ (.error _) => True
  | .other => True

-----------------------------------------------------------------------------------------
-- One step
-----------------------------------------------------------------------------------------

theorem Registered.step {label : Label} (registered : worker.Registered)
    (spares : worker.SparesOthers label) (step : Step calls config worker label after)
    : after.Registered := by
  cases step with
  | registers => exact registered.registers _ spares
  | stops member => exact registered.stops member
  | returnsLost member =>
      exact registered.of_subperm (inFlight_moveTo .stopping member).subperm rfl rfl
  | returns member =>
      exact registered.of_subperm (inFlight_moveTo .finalizing member).subperm rfl rfl
  | finalizes member =>
      exact registered.of_subperm (inFlight_moveTo .stopping member).subperm rfl rfl
  | panics => exact registered.of_subperm (inFlight_finish worker _).subperm rfl rfl
  | _ => exact registered.of_subperm (List.Subperm.refl worker.inFlight) rfl rfl

/-- The flags that the answer to a batch sets have their reason in that batch. -/
theorem FairlyLost.marks {batch : List JobLeaseRenewal} {failed : List JobId}
    (fair : worker.FairlyLost) (registered : worker.Registered)
    (spares : worker.SparesOthers (.marks batch (.ok failed)))
    (answered : worker.renewing = .answered batch (.ok failed))
    : FairlyLost { worker.markLostLeases failed with renewing := .asleep } := by
  have reported : worker.BatchSound (.answered batch (.ok failed)) := answered ▸ fair.batch
  refine fair.of_set rfl rfl (List.Subset.refl worker.failedRenewals)
    (List.Subset.refl worker.lostInBatch) (fun flag => registered.leaseFlags_lt) ?_ trivial
  intro context held marked
  obtain ⟨member, found⟩ := registered.lookup_of_marked held marked
  rcases spares context.jobId member context.lease found with renewed | set
  · exact .inl (reported context.renewal renewed member)
  · exact fair.reasons context held set

/-- The flags that the failure of a whole batch sets have that failure as their reason. -/
theorem FairlyLost.marksBatch {jobIds : List JobId} (fair : worker.FairlyLost)
    (registered : worker.Registered)
    : FairlyLost
        { worker.markLostLeases jobIds with
          renewing := .asleep
          lostInBatch := worker.leaseFlags jobIds ++ worker.lostInBatch } := by
  refine fair.of_set rfl rfl (List.Subset.refl worker.failedRenewals)
    (List.subset_append_right _ _) (fun flag => registered.leaseFlags_lt) ?_ trivial
  intro context _ marked
  exact .inr (List.mem_append_left _ marked)

/-- A context that fails to renew its own lease has its reason. -/
theorem FairlyLost.failsToRenewItself {context : JobContext} (backend : β)
    (fair : worker.FairlyLost) (registered : worker.Registered)
    (held : context ∈ worker.contexts)
    : FairlyLost
        { worker with
          backend
          lost := context.leaseLost :: worker.lost
          failedRenewals := context.renewal :: worker.failedRenewals } := by
  have grows : worker.failedRenewals ⊆ context.renewal :: worker.failedRenewals :=
    List.subset_cons_self _ _
  have set : context.leaseLost :: worker.lost = [context.leaseLost] ++ worker.lost := rfl
  refine fair.of_set rfl set grows (List.Subset.refl worker.lostInBatch) ?_ ?_
    (fair.batch.mono grows)
  · intro flag member
    rw [List.mem_singleton.mp member]
    exact registered.leaseLost_lt held
  · intro other otherHeld member
    have own := registered.eq_of_leaseLost otherHeld held (List.mem_singleton.mp member)
    exact .inl (own ▸ List.mem_cons_self)

theorem FairlyLost.step {label : Label} (fair : worker.FairlyLost)
    (registered : worker.Registered) (spares : worker.SparesOthers label)
    (step : Step calls config worker label after)
    : after.FairlyLost := by
  cases step with
  | registers => exact fair.registers _ _
  | failsToRenewItself held => exact fair.failsToRenewItself _ registered held
  | marks answered => exact fair.marks registered spares answered
  | marksBatch => exact fair.marksBatch registered
  | wakes _ _ copied =>
      refine fair.of_same rfl rfl (List.Subset.refl _) (List.Subset.refl _) ?_
      refine ⟨?_, List.Subset.refl _, ?_⟩
      · exact (copied.map JobLeaseRenewal.jobId).nodup_iff.mpr (nodup_activeLeaseRenewals worker)
      · intro jobId member
        cases member
  | @renewsNext batch rest failed renewal backend _ renewing =>
      have sound : worker.BatchSound (.renewing batch (renewal :: rest) failed) :=
        renewing ▸ fair.batch
      refine fair.of_same rfl rfl (List.Subset.refl _) (List.Subset.refl _) ?_
      exact ⟨sound.1, (List.cons_subset.mp sound.2.1).2, sound.2.2⟩
  | @failsToRenewNext batch rest failed renewal error backend _ renewing =>
      have sound : worker.BatchSound (.renewing batch (renewal :: rest) failed) :=
        renewing ▸ fair.batch
      have grows : worker.failedRenewals ⊆ renewal :: worker.failedRenewals :=
        List.subset_cons_self _ _
      obtain ⟨known, within⟩ := List.cons_subset.mp sound.2.1
      refine fair.of_same rfl rfl grows (List.Subset.refl _) ⟨sound.1, within, ?_⟩
      intro jobId member
      rcases List.mem_append.mp member with earlier | last
      · obtain ⟨other, otherKnown, same, failing⟩ := sound.2.2 jobId earlier
        exact ⟨other, otherKnown, same, grows failing⟩
      · exact ⟨renewal, known, (List.mem_singleton.mp last).symm, List.mem_cons_self⟩
  | @renewsAll batch failed _ renewing =>
      have sound : worker.BatchSound (.renewing batch [] failed) := renewing ▸ fair.batch
      exact fair.of_same rfl rfl (List.Subset.refl _) (List.Subset.refl _) sound.answered
  | @renewsBatch batch backend renewLeases failed =>
      refine fair.of_same rfl rfl (List.subset_append_right _ _) (List.Subset.refl _) ?_
      intro renewal known reported
      exact List.mem_append_left _ (List.mem_filter.mpr ⟨known, decide_eq_true reported⟩)
  | failsToRenewBatch =>
      exact fair.of_same rfl rfl (List.Subset.refl _) (List.Subset.refl _) trivial
  | _ =>
      exact fair.of_same rfl rfl (List.Subset.refl _) (List.Subset.refl _)
        (fair.batch.mono (List.Subset.refl _))

theorem registered_started (config : JobWorkerConfig) (backend : β)
    : (started config backend).Registered where
  entry context flies := by cases flies
  distinct := List.nodup_nil
  known context flies := by cases flies
  numbered := rfl
  leases jobId lease found := by cases found

theorem fairlyLost_started (config : JobWorkerConfig) (backend : β)
    : (started config backend).FairlyLost where
  reasons context held := by cases held
  allocated flag set := by cases set
  batch := trivial

end JobWorker

-----------------------------------------------------------------------------------------
-- Every run
-----------------------------------------------------------------------------------------

/-- Over any backend, and for any order of the steps of the loops: as long as no job is registered
over an older execution of it and no answer meets the lease of another token, every execution in
flight has an entry with its token, and every set flag has its reason.
-/
theorem lease_registry_follows_executions {β : Type} {calls : JobQueueBackend β}
    {config : JobWorkerConfig} {backend : β} {worker : JobWorker β}
    (run : (JobWorker.system calls config).Run (fun worker label => worker.SparesOthers label)
      (JobWorker.started config backend) worker)
    : worker.RegistryFollows ∧ worker.FlagsFollow := by
  have sound : worker.Registered ∧ worker.FairlyLost := by
    refine run.invariant (fun worker => worker.Registered ∧ worker.FairlyLost) ?_ ?_
    · exact ⟨JobWorker.registered_started config backend,
        JobWorker.fairlyLost_started config backend⟩
    · intro worker label after sound spares step
      exact ⟨sound.1.step spares step, sound.2.step sound.1 spares step⟩
  refine ⟨?_, sound.2.reasons⟩
  intro context flies
  rw [sound.1.entry context flies]
  rfl

-----------------------------------------------------------------------------------------
-- A job that stalls under its worker
-----------------------------------------------------------------------------------------

/-- A claim of the in-memory queue that hands out this job with this token. -/
theorem exists_claimed {s : InMemoryJobQueueState} {workerId : JobWorkerId} {leaseFor : Duration}
    {now : DateTime} {lockToken : JobLockToken} {jobId : JobId}
    (claims : (s.claimNext workerId leaseFor now lockToken).2.toOption.join.any (fun job =>
      job.id == jobId && job.lockToken == some lockToken && job.deferredFailure == none) = true)
    : ∃ job,
        s.claimNext workerId leaseFor now lockToken
          = ((s.claimNext workerId leaseFor now lockToken).1, .ok (some job))
        ∧ job.id = jobId
        ∧ job.lockToken = some lockToken
        ∧ job.deferredFailure = none := by
  rcases answer : s.claimNext workerId leaseFor now lockToken with ⟨t, _ | _ | job⟩
  · simp [answer, Except.toOption] at claims
  · simp [answer, Except.toOption] at claims
  · refine ⟨job, rfl, ?_⟩
    simpa [answer, Except.toOption, and_assoc] using claims

/-- Two run loops, and leases of 10 that are renewed every 5. -/
def twoLoops : JobWorkerConfig :=
  { workerId := "worker", concurrency := 2, leaseDuration := 10, leaseRenewInterval := 5 }

/-- A queue with one job. -/
def oneJob : InMemoryJobQueueState :=
  step noCron .first "queue" {} (.addAt "work" .null {} 0 "job")

/-- The job under its first lease. -/
def leasedJob : InMemoryJobQueueState := (oneJob.claimNext "worker" 10 0 "lease-1").1

/-- The job waits again, since its first lease ran out. -/
def stalledJob : InMemoryJobQueueState :=
  step noCron .first "queue" leasedJob (.recoverStalledJobs 20)

/-- The job under its second lease. -/
def leasedAgain : InMemoryJobQueueState := (stalledJob.claimNext "worker" 10 20 "lease-2").1

/-- A claim of a token that is not the job's is refused. -/
theorem exists_refused {s : InMemoryJobQueueState} {jobId : JobId} {lockToken : JobLockToken}
    {leaseFor : Duration} {now : DateTime}
    (refused : (s.requireOwnedActive jobId lockToken "renew lease").toOption.isNone = true)
    : ∃ error, answered (s.renew jobId lockToken leaseFor now) = (s, .error error) := by
  cases answer : s.requireOwnedActive jobId lockToken "renew lease" with
  | error error => exact ⟨error, by simp only [InMemoryJobQueueState.renew, answer]; rfl⟩
  | ok job => simp [answer, Except.toOption] at refused

/-- A claim by an idle loop. -/
theorem step_claims {β : Type} {calls : JobQueueBackend β} {config : JobWorkerConfig}
    {worker : JobWorker β} {job : Job} {after : β} (unclaimed : worker.claimed = [])
    (idle : worker.executions.length < worker.loops)
    (claimed : calls.claimNext worker.backend config.workerId config.leaseDuration job after)
    : JobWorker.Step calls config worker .other
        { worker with backend := after, claimed := [job] } := by
  have step := JobWorker.Step.claims (by simpa only [unclaimed, List.length_nil, Nat.zero_add])
    claimed
  rw [unclaimed] at step
  exact step

/-- The registration of a job that was claimed. -/
theorem step_registers {β : Type} {calls : JobQueueBackend β} {config : JobWorkerConfig}
    {worker : JobWorker β} {job : Job} {lockToken : JobLockToken} {after : β}
    (locked : job.lockToken = some lockToken) (undeferred : job.deferredFailure = none)
    : JobWorker.Step calls config { worker with backend := after, claimed := [job] }
        (.registers job.id)
        (({ worker with backend := after, claimed := [] }.begin
          (worker.newContext job.id lockToken)).registerActiveLease
            (worker.newContext job.id lockToken)) :=
  @JobWorker.Step.registers β calls config { worker with backend := after, claimed := [job] } [] []
    job lockToken rfl locked undeferred

/-- A claim and the registration after it. -/
theorem run_execution {β : Type} {calls : JobQueueBackend β} {config : JobWorkerConfig}
    {worker : JobWorker β} {job : Job} {jobId : JobId} {lockToken : JobLockToken} {after : β}
    {allow : JobWorker β → JobWorker.Label → Prop} (unclaimed : worker.claimed = [])
    (idle : worker.executions.length < worker.loops)
    (claimed : calls.claimNext worker.backend config.workerId config.leaseDuration job after)
    (named : job.id = jobId) (locked : job.lockToken = some lockToken)
    (undeferred : job.deferredFailure = none) (claims : allow worker .other)
    (registers : allow { worker with backend := after, claimed := [job] } (.registers job.id))
    : (JobWorker.system calls config).Run allow worker
        (({ worker with backend := after, claimed := [] }.begin
          (worker.newContext jobId lockToken)).registerActiveLease
            (worker.newContext jobId lockToken)) := by
  subst named
  have first := step_claims unclaimed idle claimed
  exact .tail (.tail (.refl worker) claims first) registers (step_registers locked undeferred)

def firstContext : JobContext := { jobId := "job", lockToken := "lease-1", leaseLost := 0 }

def secondContext : JobContext := { jobId := "job", lockToken := "lease-2", leaseLost := 1 }

/-- A worker with the job in flight under its first lease. -/
def firstExecution : JobWorker InMemoryJobQueueState :=
  ((JobWorker.started twoLoops leasedJob).begin firstContext).registerActiveLease firstContext

/-- The other run loop claimed the job again, while the first lease is about to be renewed. -/
def secondExecution : JobWorker InMemoryJobQueueState :=
  ({ firstExecution with
      backend := leasedAgain
      renewing := .renewing [firstContext.renewal] [firstContext.renewal] []
    }.begin secondContext).registerActiveLease secondContext

/-- The renewal of the first lease failed, and marked the second. -/
def overtakenLease : JobWorker InMemoryJobQueueState :=
  { { secondExecution with
      failedRenewals := [firstContext.renewal] }.markLostLeases ["job"] with renewing := .asleep }

/-- The claim of the job, under its first lease. -/
theorem claims_leasedJob
    : ∃ job,
        oneJob.claimNext "worker" 10 0 "lease-1" = (leasedJob, .ok (some job))
        ∧ job.id = "job"
        ∧ job.lockToken = some "lease-1"
        ∧ job.deferredFailure = none :=
  exists_claimed (by decide +kernel)

theorem run_firstExecution
    : (JobWorker.system (inMemoryBackend noCron "queue") twoLoops).Run
        (fun worker label => worker.SparesOthers label) (JobWorker.started twoLoops oneJob)
        firstExecution := by
  obtain ⟨job, claimed, named, locked, undeferred⟩ := claims_leasedJob
  have alone : ∀ context ∈ (JobWorker.started twoLoops oneJob).inFlight, context.jobId ≠ job.id := by
    intro context flies
    cases flies
  exact run_execution rfl Nat.zero_lt_two ⟨0, "lease-1", claimed⟩ named locked undeferred trivial
    alone

/-- The worker without a job gets one, and claims it. -/
theorem reaches_firstExecution
    : (JobWorker.system (inMemoryBackend noCron "queue") twoLoops).Reaches
        (JobWorker.started twoLoops {}) firstExecution := by
  have adds
      : JobWorker.Step (inMemoryBackend noCron "queue") twoLoops (JobWorker.started twoLoops {})
          .other (JobWorker.started twoLoops oneJob) :=
    .others ⟨{ op := .addAt "work" .null {} 0 "job" }, by decide +kernel, rfl⟩
  exact (LabelledSystem.Run.single trivial adds).trans run_firstExecution.reaches

theorem reaches_overtakenLease
    : (JobWorker.system (inMemoryBackend noCron "queue") twoLoops).Reaches
        (JobWorker.started twoLoops {}) overtakenLease := by
  have wakes
      : JobWorker.Step (inMemoryBackend noCron "queue") twoLoops firstExecution .other
          { firstExecution with
            renewing := .renewing [firstContext.renewal] [firstContext.renewal] [] } :=
    .wakes ⟨by decide, by decide⟩ rfl (List.Perm.refl _) (List.cons_ne_nil _ _)
  have recovers
      : JobWorker.Step (inMemoryBackend noCron "queue") twoLoops
          { firstExecution with
            renewing := .renewing [firstContext.renewal] [firstContext.renewal] [] } .other
          { firstExecution with
            backend := stalledJob
            renewing := .renewing [firstContext.renewal] [firstContext.renewal] [] } :=
    .others ⟨{ op := .recoverStalledJobs 20 }, by decide +kernel, rfl⟩
  obtain ⟨job, claimed, named, locked, undeferred⟩
      : ∃ job,
          stalledJob.claimNext "worker" 10 20 "lease-2" = (leasedAgain, .ok (some job))
          ∧ job.id = "job" ∧ job.lockToken = some "lease-2" ∧ job.deferredFailure = none :=
    exists_claimed (by decide +kernel)
  have claims
      : (JobWorker.system (inMemoryBackend noCron "queue") twoLoops).Reaches
          { firstExecution with
            backend := stalledJob
            renewing := .renewing [firstContext.renewal] [firstContext.renewal] [] }
          secondExecution :=
    run_execution rfl Nat.one_lt_two ⟨20, "lease-2", claimed⟩ named locked undeferred trivial
      trivial
  obtain ⟨error, refused⟩
      : ∃ error, answered (leasedAgain.renew "job" "lease-1" 10 20) = (leasedAgain, .error error) :=
    exists_refused (by decide +kernel)
  have fails
      : JobWorker.Step (inMemoryBackend noCron "queue") twoLoops secondExecution .other
          { secondExecution with
            renewing := .renewing [firstContext.renewal] [] ["job"]
            failedRenewals := [firstContext.renewal] } := by
    have renewing
        : secondExecution.renewing
          = .renewing [firstContext.renewal] [firstContext.renewal] [] := rfl
    have renewed
        : (inMemoryBackend noCron "queue").renewLease secondExecution.backend firstContext.renewal
            twoLoops.leaseDuration (.error error) leasedAgain :=
      ⟨20, refused⟩
    exact .failsToRenewNext rfl renewing renewed
  have answers
      : JobWorker.Step (inMemoryBackend noCron "queue") twoLoops
          { secondExecution with
            renewing := .renewing [firstContext.renewal] [] ["job"]
            failedRenewals := [firstContext.renewal] } .other
          { secondExecution with
            renewing := .answered [firstContext.renewal] (.ok ["job"])
            failedRenewals := [firstContext.renewal] } :=
    .renewsAll rfl rfl
  have marks
      : JobWorker.Step (inMemoryBackend noCron "queue") twoLoops
          { secondExecution with
            renewing := .answered [firstContext.renewal] (.ok ["job"])
            failedRenewals := [firstContext.renewal] }
          (.marks [firstContext.renewal] (.ok ["job"])) overtakenLease :=
    .marks rfl
  have reclaimed :=
    ((reaches_firstExecution.tail trivial wakes).tail trivial recovers).trans claims
  exact ((reclaimed.tail trivial fails).tail trivial answers).tail trivial marks

/-- The execution under the first lease has no entry of its own any more, and the flag of the
execution under the second one is set although its lease was never renewed.
-/
theorem lease_registry_overtaken
    : (¬ ∀ (config : JobWorkerConfig) (worker : JobWorker InMemoryJobQueueState),
          (JobWorker.system (inMemoryBackend noCron "queue") config).Reaches
              (JobWorker.started config {}) worker
          → worker.RegistryFollows)
      ∧ ¬ ∀ (config : JobWorkerConfig) (worker : JobWorker InMemoryJobQueueState),
          (JobWorker.system (inMemoryBackend noCron "queue") config).Reaches
              (JobWorker.started config {}) worker
          → worker.FlagsFollow := by
  constructor
  · intro follows
    have entry := follows twoLoops overtakenLease reaches_overtakenLease firstContext
      (List.mem_cons_of_mem _ List.mem_cons_self)
    revert entry
    decide +kernel
  · intro follow
    have reason := follow twoLoops overtakenLease reaches_overtakenLease secondContext (by decide +kernel)
      (by decide +kernel)
    revert reason
    unfold JobWorker.LostFor
    decide +kernel

/-- A job under its first lease. -/
theorem lease_registry_follows_first
    : firstExecution.RegistryFollows ∧ firstExecution.FlagsFollow :=
  lease_registry_follows_executions run_firstExecution

end Lane
