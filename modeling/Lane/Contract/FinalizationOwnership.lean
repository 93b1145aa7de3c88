import Lane.Redis.Finalizes

/-! Redis finalization and deduplication keys: when a finished job leaves the key alone that
another job owns by now.
-/

namespace Lane

namespace Keyspace

open Redis

variable {keys before after : Keyspace} {job : Job} {jobId ownerId : JobId} {id : String}
variable {now : DateTime}

/-- The deduplication key names this job. -/
def Names (keys : Keyspace) (id : String) (ownerId : JobId) : Prop :=
  (keys.deduplication id).map DeduplicationOwner.jobId = some ownerId

/-- The key still names its owner, the candidate under the id is the same, and no job with the
id is new.
-/
structure KeepsOwner (id : String) (ownerId : JobId) (before after : Keyspace) : Prop where
  named : after.Names id ownerId
  candidate : after.deduplicationNext id = before.deduplicationNext id
  noNew : ∀ jobId job, before.jobs jobId = none → after.jobs jobId = some job →
    deduplicationId job ≠ some id

/-- The completion leaves the id alone. -/
def CompletionLeavesAlone (keys : Keyspace) (id : String) (args : CompleteArgs) (job : Job) : Prop :=
  keys.LeavesAlone id (completedJob args job) args.jobId
    ((keys.recordCompletion args job).1.parentFailedByCompletion args (completedJob args job))

/-- The turn of the job fails it for good. -/
structure StallsOut (keys : Keyspace) (jobId : JobId) (job : Job) : Prop where
  stored : keys.jobs jobId = some job
  active : job.state = .active
  unlocked : keys.locks jobId = none
  exceeded : job.options.maxStalledCount < job.stalledCount + 1
  superseded : ((keys.leaveActive jobId).isCurrentRepeatSchedulerJob (stalledJob job) jobId).2 = false

/-- The terminal failure of a stalled job leaves the id alone. -/
def FailureLeavesAlone (keys : Keyspace) (id : String) (jobId : JobId) (job : Job) (now : DateTime)
    : Prop :=
  keys.LeavesAlone id (failedJob job now) jobId
    (((keys.leaveActive jobId).recordFailure jobId (failedJob job now) now).parentFailedByFailure
      jobId (failedJob job now) now)

/-- Every terminal failure of the loop leaves the id alone, in the state in which its turn comes. -/
def RunLeavesAlone (id : String) (now : DateTime) : Keyspace → List JobId → Prop
  | _, [] => True
  | keys, jobId :: rest =>
      (∀ job, keys.StallsOut jobId job → keys.FailureLeavesAlone id jobId job now)
        ∧ ((keys.recoverJob jobId now).2 ≠ .aborted
          → RunLeavesAlone id now (keys.recoverJob jobId now).1 rest)

theorem Spares.keepsOwner (spares : Spares id before after) (names : before.Names id ownerId)
    : KeepsOwner id ownerId before after := by
  refine ⟨?_, spares.candidate, ?_⟩
  · unfold Names
    rw [spares.owner]
    exact names
  · intro newId newJob absent found carries
    obtain ⟨old, oldFound, _⟩ := spares.within newId ⟨newJob, found, carries⟩
    rw [absent] at oldFound
    cases oldFound

/-- Whoever the key names: a finalization keeps it exactly if it leaves the id alone. -/
theorem Finalizes.keepsOwner_iff {recorded : Keyspace} {failed : Option (JobId × Job)}
    (finalizes : Finalizes job jobId now before recorded after failed)
    (identified : deduplicationId job = some id) (names : before.Names id ownerId)
    (within : before.LeavesAlone id job jobId failed → Within id before after)
    : KeepsOwner id ownerId before after ↔ before.LeavesAlone id job jobId failed := by
  constructor
  · intro keeps
    refine finalizes.leavesAlone identified ?_ keeps.candidate
    intro gone
    have named := keeps.named
    simp [Names, gone] at named
  · intro leaves
    obtain ⟨owner, candidate⟩ := finalizes.spares leaves
    exact Spares.keepsOwner ⟨owner, candidate, within leaves⟩ names

-----------------------------------------------------------------------------------------
-- Completion
-----------------------------------------------------------------------------------------

/-- A job without a parent fails none. -/
theorem parentFailedByCompletion_of_orphan {args : CompleteArgs} (orphan : job.parentId = none)
    : keys.parentFailedByCompletion args job = none := by
  simp [parentFailedByCompletion, orphan]

theorem recordCompletion_within (keys : Keyspace) (args : CompleteArgs) {job : Job}
    (stored : keys.jobs args.jobId = some job) (elsewhere : keys.CandidateElsewhere id job)
    : Within id keys (keys.recordCompletion args job).1 := by
  have released : Within id keys
      ((keys.releaseLock args.jobId).releaseDeduplicationKeyOnFinalization (completedJob args job)
        args.jobId) :=
    Within.of_jobs (.refl id keys) (release_jobs _ _ _)
  have entered := released.enqueueDeduplicatedNext
    (elsewhere.congr (release_candidates _ _ _) rfl) args.now
  refine Within.collectMetrics (Within.storeFinished entered ?_ _ _ _) _ _
  exact fun carries => ⟨job, stored, carries⟩

theorem finishCompletion_within (keys : Keyspace) (args : CompleteArgs) {job : Job}
    (stored : keys.jobs args.jobId = some job) (only : args.repeatNext = none)
    (elsewhere : keys.CandidateElsewhere id job)
    : Within id keys (keys.finishCompletion args job) := by
  have recorded := recordCompletion_within keys args stored elsewhere
  have settled := settleParent_within recorded args (completedJob args job)
  unfold finishCompletion
  simp only [only]
  exact settled.of_jobs (releaseRepeatKey_jobs _ _ _)

theorem finishCompletion_finalizes (keys : Keyspace) (args : CompleteArgs) (job : Job)
    (only : args.repeatNext = none)
    : Finalizes (completedJob args job) args.jobId args.now keys (keys.recordCompletion args job).1
        (keys.finishCompletion args job)
        ((keys.recordCompletion args job).1.parentFailedByCompletion args (completedJob args job))
    where
  record := by
    refine ⟨(keys.releaseLock args.jobId).releaseDeduplicationKeyOnFinalization
      (completedJob args job) args.jobId, ?_, ?_⟩
    · refine release_congr ?_ rfl args.jobId
      exact ⟨rfl, rfl⟩
    · exact storeCompleted_apart _ args (completedJob args job)
  settle := by
    unfold finishCompletion
    simp only [only]
    exact (settleParent_apart _ args _).trans (releaseRepeatKey_apart _ _ _)

-----------------------------------------------------------------------------------------
-- Stalled recovery
-----------------------------------------------------------------------------------------

theorem isCurrentRepeatSchedulerJob_of_false
    (superseded : (keys.isCurrentRepeatSchedulerJob job jobId).2 = false)
    : (keys.isCurrentRepeatSchedulerJob job jobId).1 = keys := by
  revert superseded
  unfold isCurrentRepeatSchedulerJob
  split
  · simp
  · dsimp only
    split_ifs <;> simp

theorem isCurrentRepeatSchedulerJob_jobs (keys : Keyspace) (job : Job) (jobId : JobId)
    : (keys.isCurrentRepeatSchedulerJob job jobId).1.jobs = keys.jobs := by
  unfold isCurrentRepeatSchedulerJob
  split
  · rfl
  · dsimp only
    split_ifs <;> rfl

/-- A job that stalls out fails in its turn. -/
theorem StallsOut.recoverJob_eq (stalls : keys.StallsOut jobId job) (now : DateTime)
    : (keys.recoverJob jobId now).1 = ((keys.leaveActive jobId).failStalled jobId job now).1 := by
  have exceeded : ¬ (stalledJob job).stalledCount ≤ job.options.maxStalledCount :=
    Nat.not_le.mpr stalls.exceeded
  have current := stalls.superseded
  have kept := isCurrentRepeatSchedulerJob_of_false current
  simp only [recoverJob, stalls.stored, stalls.active, stalls.unlocked, exceeded, current, kept,
    ne_eq, not_true_eq_false, if_false, Option.isSome_none, Bool.false_eq_true]

theorem recordFailure_within (keys : Keyspace) (jobId : JobId) {job : Job} (now : DateTime)
    (stored : keys.jobs jobId = some job) (elsewhere : keys.CandidateElsewhere id job)
    : Within id keys (keys.recordFailure jobId (failedJob job now) now) := by
  have freed : Within id keys
      ((keys.deleteDependencies jobId).releaseDeduplicationKeyOnFinalization (failedJob job now) jobId) :=
    Within.of_jobs (.refl id keys) (release_jobs _ _ _)
  have released := freed.of_jobs (releaseRepeatKey_jobs _ (failedJob job now) jobId)
  have candidates := (releaseRepeatKey_apart
    ((keys.deleteDependencies jobId).releaseDeduplicationKeyOnFinalization (failedJob job now) jobId)
    (failedJob job now) jobId).candidates.trans (release_candidates _ _ _)
  have entered := released.enqueueDeduplicatedNext (elsewhere.congr candidates rfl) now
  refine Within.collectMetrics (Within.storeFinished entered ?_ _ _ _) _ _
  exact fun carries => ⟨job, stored, carries⟩

theorem failStalled_finalizes (keys : Keyspace) (jobId : JobId) (job : Job) (now : DateTime)
    : Finalizes (failedJob job now) jobId now keys
        (keys.recordFailure jobId (failedJob job now) now) (keys.failStalled jobId job now).1
        ((keys.recordFailure jobId (failedJob job now) now).parentFailedByFailure jobId
          (failedJob job now) now)
    where
  record := by
    refine ⟨((keys.deleteDependencies jobId).releaseDeduplicationKeyOnFinalization
      (failedJob job now) jobId).releaseRepeatKey (failedJob job now) jobId, ?_, ?_⟩
    · refine Apart.trans (release_congr ?_ rfl jobId) (releaseRepeatKey_apart _ _ _)
      exact ⟨rfl, rfl⟩
    · exact storeFailed_apart _ jobId (failedJob job now) now
  settle := settleFailedChild_apart _ jobId _ now

/-- The turn of a job that stalls out, as a finalization. -/
theorem StallsOut.finalizes (stalls : keys.StallsOut jobId job) (now : DateTime)
    : Finalizes (failedJob job now) jobId now keys
        ((keys.leaveActive jobId).recordFailure jobId (failedJob job now) now)
        (keys.recoverJob jobId now).1
        (((keys.leaveActive jobId).recordFailure jobId (failedJob job now) now).parentFailedByFailure
          jobId (failedJob job now) now) := by
  have finalizes := failStalled_finalizes (keys.leaveActive jobId) jobId job now
  obtain ⟨released, release, enqueue⟩ := finalizes.record
  rw [stalls.recoverJob_eq]
  refine ⟨⟨released, .trans (release_congr ?_ rfl jobId) release, enqueue⟩, finalizes.settle⟩
  exact ⟨rfl, rfl⟩

theorem StallsOut.within (stalls : keys.StallsOut jobId job)
    (elsewhere : keys.CandidateElsewhere id job)
    : Within id keys (keys.recoverJob jobId now).1 := by
  have recorded := recordFailure_within (keys.leaveActive jobId) jobId now stalls.stored
    (elsewhere.congr rfl rfl)
  rw [stalls.recoverJob_eq]
  exact settleFailedChild_within recorded jobId _ now

theorem StallsOut.spares (stalls : keys.StallsOut jobId job)
    (leaves : keys.FailureLeavesAlone id jobId job now)
    : Spares id keys (keys.recoverJob jobId now).1 := by
  obtain ⟨owner, candidate⟩ := (stalls.finalizes now).spares leaves
  exact ⟨owner, candidate, stalls.within (leaves.candidate.congr rfl rfl)⟩

theorem requeueStalled_spares (spares : Spares id base keys)
    (stored : keys.jobs jobId = some job)
    : Spares id base (keys.requeueStalled jobId job) := by
  refine spares.apart ⟨rfl, rfl⟩ (Within.enqueueWaitingJob spares.within ?_ _)
  exact fun carries => spares.within jobId ⟨job, stored, carries⟩

/-- A turn touches the id only by failing its job. -/
theorem recoverJob_spares
    (leaves : ∀ job, keys.StallsOut jobId job → keys.FailureLeavesAlone id jobId job now)
    : Spares id keys (keys.recoverJob jobId now).1 := by
  have unlisted : Spares id keys (keys.leaveActive jobId) := ⟨rfl, rfl, .refl id keys⟩
  by_cases stalls : ∃ job, keys.StallsOut jobId job
  · obtain ⟨job, stalls⟩ := stalls
    exact stalls.spares (leaves job stalls)
  · unfold recoverJob
    cases stored : keys.jobs jobId with
    | none => exact unlisted
    | some job =>
        dsimp only
        split
        · exact unlisted
        · next active =>
            split
            · exact .refl id keys
            · next locked =>
                split
                · exact requeueStalled_spares unlisted stored
                · next within =>
                    split
                    · refine requeueStalled_spares
                        (unlisted.apart (isCurrentRepeatSchedulerJob_apart _ _ _)
                          (unlisted.within.of_jobs (isCurrentRepeatSchedulerJob_jobs _ _ _))) ?_
                      rw [isCurrentRepeatSchedulerJob_jobs]
                      exact stored
                    · next current =>
                        refine absurd ⟨job, ?_⟩ stalls
                        exact ⟨stored, not_not.mp active, by simpa using locked,
                          Nat.lt_of_not_le within, by simpa using current⟩

/-- The loop touches the id only by failing jobs. -/
theorem recoverJobs_spares {popped : List JobId} (leaves : RunLeavesAlone id now keys popped)
    : Spares id keys (keys.recoverJobs now popped).1 := by
  induction popped generalizing keys with
  | nil => exact .refl id keys
  | cons jobId rest ih =>
      obtain ⟨here, later⟩ := leaves
      have turn := recoverJob_spares here
      unfold recoverJobs
      rcases outcome : keys.recoverJob jobId now with ⟨next, ended⟩
      rw [outcome] at turn later
      cases ended with
      | skipped => exact turn.trans (ih (later (by simp)))
      | recovered => exact turn.trans (ih (later (by simp)))
      | aborted => exact turn

theorem recoverStalled_spares {popped : List JobId}
    (leaves : RunLeavesAlone id now { keys with stalled := keys.stalled \ popped.toFinset } popped)
    : Spares id keys (keys.recoverStalled popped now).1 := by
  have started : Spares id keys { keys with stalled := keys.stalled \ popped.toFinset } :=
    ⟨rfl, rfl, .refl id keys⟩
  have looped := started.trans (recoverJobs_spares leaves)
  unfold recoverStalled
  dsimp only
  split
  · next final ended =>
      rw [ended] at looped
      exact looped
  · next final recovered ended =>
      rw [ended] at looped
      exact ⟨looped.owner, looped.candidate, looped.within⟩

end Keyspace

/-- A completion under an id, without a repeat successor, and the turn in which a stalled job
under an id fails for good keep the key's owner exactly if they leave the id alone; a recovery
script whose failures all leave the id alone keeps it from its first write to its last.
-/
theorem finalization_keeps_owner_iff {keys : Keyspace} {id : String} {ownerId : JobId}
    (names : keys.Names id ownerId)
    : (∀ args job,
        keys.completeRejection args = none
        → keys.jobs args.jobId = some job
        → args.repeatNext = none
        → Redis.deduplicationId job = some id
        → (Keyspace.KeepsOwner id ownerId keys (keys.complete args).1
          ↔ keys.CompletionLeavesAlone id args job))
      ∧ (∀ jobId job now,
          keys.StallsOut jobId job
          → Redis.deduplicationId job = some id
          → (Keyspace.KeepsOwner id ownerId keys (keys.recoverJob jobId now).1
            ↔ keys.FailureLeavesAlone id jobId job now))
      ∧ ∀ popped now,
          Keyspace.RunLeavesAlone id now { keys with stalled := keys.stalled \ popped.toFinset } popped
          → Keyspace.KeepsOwner id ownerId keys (keys.recoverStalled popped now).1 := by
  refine ⟨?_, ?_, ?_⟩
  · intro args job accepted stored only identified
    have completed : (keys.complete args).1 = keys.finishCompletion args job := by
      simp [Keyspace.complete, accepted, stored]
    rw [completed]
    exact (keys.finishCompletion_finalizes args job only).keepsOwner_iff identified names
      (fun leaves => keys.finishCompletion_within args stored only (leaves.candidate.congr rfl rfl))
  · intro jobId job now stalls identified
    exact (stalls.finalizes now).keepsOwner_iff identified names
      (fun leaves => stalls.within (leaves.candidate.congr rfl rfl))
  · intro popped now leaves
    exact (Keyspace.recoverStalled_spares leaves).keepsOwner names

-----------------------------------------------------------------------------------------
-- A candidate that another owner's key loses to
-----------------------------------------------------------------------------------------

/-- The owner's deduplication key was removed, a second job took the id and is active too, and a
third submission is stored as the candidate of the second.
-/
def overtakenKeys : Keyspace :=
  let keepLast : JobOptions := { deduplication := some { id := "key", keepLastIfActive := true } }
  let working : JobId → Job := fun id =>
    { Job.new "queue" "work" .null keepLast 0 id with state := .active }
  { jobs := fun id => if id = "first" ∨ id = "second" then some (working id) else none
    locks := fun id => if id = "first" then some "lease-1" else if id = "second" then some "lease-2" else none
    deduplication := fun id => if id = "key" then some { jobId := "second", pttl := none } else none
    deduplicationNext := fun id =>
      if id = "key" then some (.job (Job.new "queue" "work" .null keepLast 0 "third")) else none }

/-- The completion of the job that no longer owns the id. -/
def overtakenCompletion : CompleteArgs :=
  { jobId := "first", lockToken := "lease-1", now := 5, value := .null, removeOnComplete := false
    repeatNext := none }

/-- The completion of the first job admits the third one and makes it the owner, while the second
one still runs.
-/
theorem owner_lost_to_candidate
    : ¬ ∀ (keys : Keyspace) args job id ownerId owner,
        keys.completeRejection args = none
        → keys.jobs args.jobId = some job
        → args.repeatNext = none
        → Redis.deduplicationId job = some id
        → keys.Names id ownerId
        → ownerId ≠ args.jobId
        → keys.jobs ownerId = some owner
        → owner.state.isTerminal = false
        → Keyspace.KeepsOwner id ownerId keys (keys.complete args).1 := by
  intro keepsOwner
  have keeps := keepsOwner overtakenKeys overtakenCompletion _ "key" "second" _ (by decide +kernel) rfl
    rfl rfl rfl (by decide) rfl rfl
  have named := keeps.named
  revert named
  unfold Keyspace.Names
  decide +kernel

/-- The same keys without a stored candidate. -/
def ownedKeys : Keyspace := { overtakenKeys with deduplicationNext := fun _ => none }

theorem finalization_keeps_owner_without_candidate
    : Keyspace.KeepsOwner "key" "second" ownedKeys (ownedKeys.complete overtakenCompletion).1 := by
  have names : ownedKeys.Names "key" "second" := rfl
  refine ((finalization_keeps_owner_iff names).1 overtakenCompletion _ (by decide +kernel) rfl rfl
    rfl).mpr ?_
  refine ⟨?_, ?_, ?_⟩
  · intro otherId next _ stored
    cases stored
  · rintro ⟨_, owner, owned, expiring | ⟨_, same⟩⟩
    · cases owned
      cases expiring
    · cases owned
      revert same
      decide
  · intro parentId parent failed
    rw [Keyspace.parentFailedByCompletion_of_orphan rfl] at failed
    cases failed

end Lane
