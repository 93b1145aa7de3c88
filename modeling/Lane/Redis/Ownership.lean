import Lane.Library.KeyTable
import Lane.Redis.Complete
import Lane.Redis.RecoverStalled

/-! What the finalization scripts write of the deduplication keys, the stored candidates and
the jobs that carry a deduplication id.
-/

namespace Lane

namespace Keyspace

open Redis

variable {keys middle after base : Keyspace} {job updated : Job} {jobId childId parentId : JobId}
variable {id : String}

-----------------------------------------------------------------------------------------
-- Writes apart from the deduplication keys
-----------------------------------------------------------------------------------------

/-- Neither a deduplication key nor a stored candidate is written. -/
structure Apart (before after : Keyspace) : Prop where
  owners : after.deduplication = before.deduplication
  candidates : after.deduplicationNext = before.deduplicationNext

theorem Apart.refl (keys : Keyspace) : Apart keys keys := ⟨rfl, rfl⟩

theorem Apart.trans (first : Apart keys middle) (second : Apart middle after) : Apart keys after :=
  ⟨second.owners.trans first.owners, second.candidates.trans first.candidates⟩

/-- A loop whose turns write apart writes apart. -/
theorem Apart.foldl {α : Type} {step : Keyspace → α → Keyspace}
    (turn : ∀ keys item, Apart keys (step keys item)) (items : List α) (keys : Keyspace)
    : Apart keys (items.foldl step keys) := by
  induction items generalizing keys with
  | nil => exact .refl keys
  | cons item rest ih => exact (turn keys item).trans (ih (step keys item))

theorem storeRepeatScheduler_apart (keys : Keyspace) (job : Job) (jobId : JobId) (score : Int)
    : Apart keys (keys.storeRepeatScheduler job jobId score) := by
  unfold storeRepeatScheduler
  split <;> exact ⟨rfl, rfl⟩

theorem setRepeatKey_apart (keys : Keyspace) (job : Job) (jobId : JobId) (score : Int)
    : Apart keys (keys.setRepeatKey job jobId score) := by
  unfold setRepeatKey
  split
  · exact .refl keys
  · refine .trans ?_ (storeRepeatScheduler_apart _ job jobId score)
    exact ⟨rfl, rfl⟩

theorem releaseRepeatKey_apart (keys : Keyspace) (job : Job) (jobId : JobId)
    : Apart keys (keys.releaseRepeatKey job jobId) := by
  unfold releaseRepeatKey
  split
  · exact .refl keys
  · dsimp only
    split_ifs <;> exact ⟨rfl, rfl⟩

theorem removeFinishedJob_apart (keys : Keyspace) (jobId : JobId)
    : Apart keys (keys.removeFinishedJob jobId) := by
  unfold removeFinishedJob
  split
  · exact ⟨rfl, rfl⟩
  · exact (releaseRepeatKey_apart keys _ jobId).trans ⟨rfl, rfl⟩

theorem removeFinishedJobs_apart (keys : Keyspace) (jobIds : List JobId)
    : Apart keys (keys.removeFinishedJobs jobIds) :=
  .foldl removeFinishedJob_apart jobIds keys

theorem removeFinishedJobsByMaxAge_apart (keys : Keyspace) (timestamp : Int)
    (retention : JobRetention) (finish : Finish)
    : Apart keys (keys.removeFinishedJobsByMaxAge timestamp retention finish) := by
  unfold removeFinishedJobsByMaxAge
  split
  · exact .refl keys
  · dsimp only
    split_ifs <;> exact (removeFinishedJobs_apart keys _).trans ⟨rfl, rfl⟩

theorem removeFinishedJobsByMaxCount_apart (keys : Keyspace) (maxCount : Option Nat)
    (finish : Finish)
    : Apart keys (keys.removeFinishedJobsByMaxCount maxCount finish) := by
  unfold removeFinishedJobsByMaxCount
  split
  · exact .refl keys
  · exact .refl keys
  · exact (removeFinishedJobs_apart keys _).trans ⟨rfl, rfl⟩

theorem applyFinishedRetention_apart (keys : Keyspace) (timestamp : Int)
    (retention : Option JobRetention) (finish : Finish)
    : Apart keys (keys.applyFinishedRetention timestamp retention finish) := by
  unfold applyFinishedRetention
  split
  · exact .refl keys
  · exact (removeFinishedJobsByMaxAge_apart keys timestamp _ finish).trans
      (removeFinishedJobsByMaxCount_apart _ _ finish)

theorem storeFinished_apart (keys : Keyspace) (jobId : JobId) (job : Job) (timestamp : Int)
    (retention : Option JobRetention) (finish : Finish)
    : Apart keys (keys.storeFinished jobId job timestamp retention finish) := by
  unfold storeFinished
  split
  · exact removeFinishedJob_apart keys jobId
  · refine .trans ?_ (applyFinishedRetention_apart _ timestamp retention finish)
    exact ⟨rfl, rfl⟩

theorem enqueuePreparedJob_apart (keys : Keyspace) (job : Job) (score : Int)
    : Apart keys (keys.enqueuePreparedJob job score) := by
  unfold enqueuePreparedJob
  split <;> exact ⟨rfl, rfl⟩

theorem registerNextChild_apart (keys : Keyspace) (job : Job)
    : Apart keys (keys.registerNextChild job) := by
  unfold registerNextChild
  split
  · exact .refl keys
  · split
    · exact .refl keys
    · dsimp only
      split_ifs <;> exact ⟨rfl, rfl⟩

theorem recordProcessedChild_apart (keys : Keyspace) (parentId : JobId) (args : CompleteArgs)
    : Apart keys (keys.recordProcessedChild parentId args) := by
  unfold recordProcessedChild
  split_ifs <;> exact ⟨rfl, rfl⟩

theorem releaseParent_apart (keys : Keyspace) (parentId : JobId) (parent : Job) (now : DateTime)
    : Apart keys (keys.releaseParent parentId parent now) := by
  unfold releaseParent
  dsimp only
  split_ifs <;> exact ⟨rfl, rfl⟩

theorem storeCompleted_apart (keys : Keyspace) (args : CompleteArgs) (updated : Job)
    : Apart keys (keys.storeCompleted args updated) :=
  (storeFinished_apart keys args.jobId updated _ _ _).trans ⟨rfl, rfl⟩

theorem storeFailed_apart (keys : Keyspace) (jobId : JobId) (failed : Job) (now : DateTime)
    : Apart keys (keys.storeFailed jobId failed now) :=
  (storeFinished_apart keys jobId failed _ _ _).trans ⟨rfl, rfl⟩

theorem recordFailedChild_apart (keys : Keyspace) (parentId childId : JobId) (job : Job)
    (timestamp : Int)
    : Apart keys (keys.recordFailedChild parentId childId job timestamp) := by
  unfold recordFailedChild
  dsimp only
  split_ifs <;> exact ⟨rfl, rfl⟩

theorem parentTurn_apart (keys : Keyspace) (parentId : JobId) (parent : Job) (childId : JobId)
    (job : Job) (timestamp : Int)
    : Apart keys (keys.parentTurn parentId parent childId job timestamp).1 := by
  unfold parentTurn
  dsimp only
  split_ifs
  · exact ⟨rfl, rfl⟩
  · exact ⟨rfl, rfl⟩
  · exact ⟨rfl, rfl⟩
  · exact ⟨rfl, rfl⟩
  · exact ⟨rfl, rfl⟩
  · exact ⟨rfl, rfl⟩
  · split <;> exact ⟨rfl, rfl⟩
  · exact .refl keys

theorem isCurrentRepeatSchedulerJob_apart (keys : Keyspace) (job : Job) (jobId : JobId)
    : Apart keys (keys.isCurrentRepeatSchedulerJob job jobId).1 := by
  unfold isCurrentRepeatSchedulerJob
  split
  · exact .refl keys
  · dsimp only
    split_ifs <;> exact ⟨rfl, rfl⟩

-----------------------------------------------------------------------------------------
-- Jobs with a deduplication id
-----------------------------------------------------------------------------------------

/-- The job at `jobId` is retained and carries the deduplication id. -/
def Carries (keys : Keyspace) (id : String) (jobId : JobId) : Prop :=
  KeyTable.Holds deduplicationId keys.jobs id jobId

/-- Every job that carries the deduplication id did so in `base`. -/
def Within (id : String) (base keys : Keyspace) : Prop :=
  ∀ jobId, keys.Carries id jobId → base.Carries id jobId

theorem Within.refl (id : String) (keys : Keyspace) : Within id keys keys := fun _ carries => carries

theorem Within.trans (first : Within id keys middle) (second : Within id middle after)
    : Within id keys after :=
  fun jobId carries => first jobId (second jobId carries)

theorem Within.of_jobs (within : Within id base keys) (same : after.jobs = keys.jobs)
    : Within id base after := by
  intro jobId carries
  refine within jobId ?_
  unfold Carries
  rw [← same]
  exact carries

theorem Within.setJob (within : Within id base keys)
    (carried : deduplicationId job = some id → base.Carries id jobId)
    : Within id base (keys.setJob jobId job) := by
  rintro other ⟨record, found, carries⟩
  by_cases same : other = jobId
  · rw [same] at found ⊢
    have stored : job = record := by simpa [Keyspace.setJob] using found
    exact carried (stored ▸ carries)
  · exact within other ⟨record, by simpa [Keyspace.setJob, same] using found, carries⟩

theorem Within.deleteJob (within : Within id base keys) (jobId : JobId)
    : Within id base (keys.deleteJob jobId) := by
  rintro other ⟨record, found, carries⟩
  by_cases same : other = jobId
  · simp [Keyspace.deleteJob, same] at found
  · exact within other ⟨record, by simpa [Keyspace.deleteJob, same] using found, carries⟩

theorem Within.foldl {α : Type} {step : Keyspace → α → Keyspace} {items : List α}
    (turn : ∀ keys, ∀ item ∈ items, Within id base keys → Within id base (step keys item))
    (within : Within id base keys)
    : Within id base (items.foldl step keys) := by
  induction items generalizing keys with
  | nil => exact within
  | cons item rest ih =>
      exact ih (fun keys item member => turn keys item (List.mem_cons_of_mem _ member))
        (turn keys item List.mem_cons_self within)

theorem storeRepeatScheduler_jobs (keys : Keyspace) (job : Job) (jobId : JobId) (score : Int)
    : (keys.storeRepeatScheduler job jobId score).jobs = keys.jobs := by
  unfold storeRepeatScheduler
  split <;> rfl

theorem setRepeatKey_jobs (keys : Keyspace) (job : Job) (jobId : JobId) (score : Int)
    : (keys.setRepeatKey job jobId score).jobs = keys.jobs := by
  unfold setRepeatKey
  split
  · rfl
  · exact storeRepeatScheduler_jobs _ job jobId score

theorem releaseRepeatKey_jobs (keys : Keyspace) (job : Job) (jobId : JobId)
    : (keys.releaseRepeatKey job jobId).jobs = keys.jobs := by
  unfold releaseRepeatKey
  split
  · rfl
  · dsimp only
    split_ifs <;> rfl

theorem recordProcessedChild_jobs (keys : Keyspace) (parentId : JobId) (args : CompleteArgs)
    : (keys.recordProcessedChild parentId args).jobs = keys.jobs := by
  unfold recordProcessedChild
  split_ifs <;> rfl

theorem recordFailedChild_jobs (keys : Keyspace) (parentId childId : JobId) (job : Job)
    (timestamp : Int)
    : (keys.recordFailedChild parentId childId job timestamp).jobs = keys.jobs := by
  unfold recordFailedChild
  dsimp only
  split_ifs <;> rfl

theorem parentTurn_jobs (keys : Keyspace) (parentId : JobId) (parent : Job) (childId : JobId)
    (job : Job) (timestamp : Int)
    : (keys.parentTurn parentId parent childId job timestamp).1.jobs = keys.jobs := by
  unfold parentTurn
  dsimp only
  split_ifs
  · rfl
  · rfl
  · rfl
  · rfl
  · rfl
  · rfl
  · split <;> rfl
  · rfl

theorem Within.removeFinishedJob (within : Within id base keys) (jobId : JobId)
    : Within id base (keys.removeFinishedJob jobId) := by
  unfold Keyspace.removeFinishedJob
  split
  · exact within.deleteJob jobId
  · exact (within.of_jobs (releaseRepeatKey_jobs keys _ jobId)).deleteJob jobId

theorem Within.removeFinishedJobs (within : Within id base keys) (jobIds : List JobId)
    : Within id base (keys.removeFinishedJobs jobIds) :=
  within.foldl (fun _ jobId _ within => within.removeFinishedJob jobId)

theorem Within.removeFinishedJobsByMaxAge (within : Within id base keys) (timestamp : Int)
    (retention : JobRetention) (finish : Finish)
    : Within id base (keys.removeFinishedJobsByMaxAge timestamp retention finish) := by
  unfold Keyspace.removeFinishedJobsByMaxAge
  split
  · exact within
  · dsimp only
    split_ifs <;> exact within.removeFinishedJobs _

theorem Within.removeFinishedJobsByMaxCount (within : Within id base keys) (maxCount : Option Nat)
    (finish : Finish)
    : Within id base (keys.removeFinishedJobsByMaxCount maxCount finish) := by
  unfold Keyspace.removeFinishedJobsByMaxCount
  split
  · exact within
  · exact within
  · exact within.removeFinishedJobs _

theorem Within.applyFinishedRetention (within : Within id base keys) (timestamp : Int)
    (retention : Option JobRetention) (finish : Finish)
    : Within id base (keys.applyFinishedRetention timestamp retention finish) := by
  unfold Keyspace.applyFinishedRetention
  split
  · exact within
  · exact (within.removeFinishedJobsByMaxAge timestamp _ finish).removeFinishedJobsByMaxCount _ _

theorem Within.storeFinished (within : Within id base keys)
    (carried : deduplicationId job = some id → base.Carries id jobId) (timestamp : Int)
    (retention : Option JobRetention) (finish : Finish)
    : Within id base (keys.storeFinished jobId job timestamp retention finish) := by
  unfold Keyspace.storeFinished
  split
  · exact within.removeFinishedJob jobId
  · refine Within.applyFinishedRetention ?_ timestamp retention finish
    exact within.setJob carried

theorem Within.collectMetrics (within : Within id base keys) (finish : Finish) (timestamp : Int)
    : Within id base (keys.collectMetrics finish timestamp) :=
  within

theorem Within.enqueueWaitingJob (within : Within id base keys)
    (carried : deduplicationId job = some id → base.Carries id jobId) (priority : JobPriority)
    : Within id base (keys.enqueueWaitingJob job jobId priority) := by
  refine Within.setJob ?_ ?_
  · exact within
  · exact carried

theorem Within.enqueuePreparedJob (within : Within id base keys)
    (carried : deduplicationId job = some id → base.Carries id job.id) (score : Int)
    : Within id base (keys.enqueuePreparedJob job score) := by
  unfold Keyspace.enqueuePreparedJob
  split
  · exact within.enqueueWaitingJob carried job.priority
  · exact within.setJob carried
  · exact within.setJob carried
  · exact within.setJob carried

theorem Within.registerNextChild (within : Within id base keys) (job : Job)
    : Within id base (keys.registerNextChild job) := by
  unfold Keyspace.registerNextChild
  split
  · exact within
  · split
    · exact within
    · next parentId _ _ parent found =>
        dsimp only
        split_ifs
        · exact within
        · exact within.setJob (fun carries => within parentId ⟨parent, found, carries⟩)

-----------------------------------------------------------------------------------------
-- Writes that spare one deduplication id
-----------------------------------------------------------------------------------------

/-- The key of the id and its candidate are as in `base`, and no new job carries the id. -/
structure Spares (id : String) (base keys : Keyspace) : Prop where
  owner : keys.deduplication id = base.deduplication id
  candidate : keys.deduplicationNext id = base.deduplicationNext id
  within : Within id base keys

theorem Spares.refl (id : String) (keys : Keyspace) : Spares id keys keys :=
  ⟨rfl, rfl, .refl id keys⟩

theorem Spares.trans (first : Spares id keys middle) (second : Spares id middle after)
    : Spares id keys after :=
  ⟨second.owner.trans first.owner, second.candidate.trans first.candidate,
    fun jobId carries => first.within jobId (second.within jobId carries)⟩

theorem Spares.apart (spares : Spares id base keys) (apart : Apart keys after)
    (within : Within id base after)
    : Spares id base after :=
  ⟨(congrFun apart.owners id).trans spares.owner,
    (congrFun apart.candidates id).trans spares.candidate, within⟩

/-- Finalizing the job deletes the key: the key is in its last millisecond, or it does not
expire and names the job.
-/
def GivesUp (keys : Keyspace) (id : String) (job : Job) (jobId : JobId) : Prop :=
  deduplicationId job = some id
    ∧ ∃ owner, keys.deduplication id = some owner
      ∧ (owner.pttl = some 0 ∨ owner.pttl = none ∧ owner.jobId = jobId)

/-- The candidate that the finished job would enqueue is another id's, and brings no job with
this id.
-/
def CandidateElsewhere (keys : Keyspace) (id : String) (job : Job) : Prop :=
  ∀ otherId next, deduplicationId job = some otherId → keys.deduplicationNext otherId = some next →
    otherId ≠ id ∧ ∀ nextJob ∈ next.jobs, deduplicationId nextJob ≠ some id

theorem CandidateElsewhere.congr (elsewhere : keys.CandidateElsewhere id job)
    (candidates : after.deduplicationNext = keys.deduplicationNext)
    (same : deduplicationId updated = deduplicationId job)
    : after.CandidateElsewhere id updated := by
  unfold CandidateElsewhere
  rw [candidates, same]
  exact elsewhere

theorem releaseDeduplicationKeyOnFinalization_of_givesUp (givesUp : keys.GivesUp id job jobId)
    : keys.releaseDeduplicationKeyOnFinalization job jobId = keys.deleteOwner id := by
  obtain ⟨identified, ⟨ownerId, pttl⟩, owned, expiring | ⟨lasting, same⟩⟩ := givesUp
  · simp only at expiring
    simp [releaseDeduplicationKeyOnFinalization, identified, owned, expiring]
  · simp only at lasting same
    simp [releaseDeduplicationKeyOnFinalization, identified, owned, lasting, same]

theorem releaseDeduplicationKeyOnFinalization_spares (spares : Spares id base keys)
    (keeps : ¬ keys.GivesUp id job jobId)
    : Spares id base (keys.releaseDeduplicationKeyOnFinalization job jobId) := by
  have other {otherId : String} (different : otherId ≠ id) : Spares id base (keys.deleteOwner otherId) :=
    ⟨(Function.update_of_ne (Ne.symm different) _ _).trans spares.owner, spares.candidate, spares.within⟩
  unfold releaseDeduplicationKeyOnFinalization
  split
  · exact spares
  · next otherId identified =>
      split
      · exact spares
      · next owner owned =>
          refine other ?_
          rintro rfl
          exact keeps ⟨identified, _, owned, .inl rfl⟩
      · exact spares
      · next owner owned =>
          split_ifs with same
          · refine other ?_
            rintro rfl
            exact keeps ⟨identified, _, owned, .inr ⟨rfl, same⟩⟩
          · exact spares

theorem setDeduplicationKey_spares (spares : Spares id base keys)
    (other : deduplicationId job ≠ some id) (jobId : JobId)
    : Spares id base (keys.setDeduplicationKey job jobId) := by
  unfold setDeduplicationKey
  split
  · exact spares
  · next otherId identified =>
      have different : id ≠ otherId := by
        rintro rfl
        exact other identified
      exact ⟨(Function.update_of_ne different _ _).trans spares.owner, spares.candidate, spares.within⟩

theorem enqueuePreparedJob_spares (spares : Spares id base keys)
    (other : deduplicationId job ≠ some id) (score : Int)
    : Spares id base (keys.enqueuePreparedJob job score) :=
  spares.apart (enqueuePreparedJob_apart keys job score)
    (spares.within.enqueuePreparedJob (fun carries => absurd carries other) score)

theorem deleteNext_spares (spares : Spares id base keys) {otherId : String} (different : otherId ≠ id)
    : Spares id base (keys.deleteNext otherId) :=
  ⟨spares.owner, (Function.update_of_ne (Ne.symm different) _ _).trans spares.candidate, spares.within⟩

theorem deleteDependencies_spares (spares : Spares id base keys) (jobId : JobId)
    : Spares id base (keys.deleteDependencies jobId) :=
  ⟨spares.owner, spares.candidate, spares.within⟩

theorem enqueueNextFlowChild_spares (spares : Spares id base keys) {child : Job}
    (other : deduplicationId child ≠ some id) (parentId : JobId) (now : DateTime)
    : Spares id base (keys.enqueueNextFlowChild parentId child now) := by
  refine enqueuePreparedJob_spares (setDeduplicationKey_spares ?_ ?_ child.id) ?_ _
  · exact ⟨spares.owner, spares.candidate, spares.within⟩
  · exact other
  · exact other

theorem enqueueNextFlowChildren_spares (spares : Spares id base keys) {children : List Job}
    (other : ∀ child ∈ children, deduplicationId child ≠ some id) (parentId : JobId) (now : DateTime)
    : Spares id base
        (children.foldl (fun keys child => keys.enqueueNextFlowChild parentId child now) keys) := by
  induction children generalizing keys with
  | nil => exact spares
  | cons child rest ih =>
      have turn := enqueueNextFlowChild_spares spares (other child List.mem_cons_self) parentId now
      exact ih turn (fun later member => other later (List.mem_cons_of_mem _ member))

theorem insertNextFlow_spares (spares : Spares id base keys) {parent : Job} {children : List Job}
    (otherParent : deduplicationId parent ≠ some id)
    (otherChild : ∀ child ∈ children, deduplicationId child ≠ some id) (now : DateTime)
    : Spares id base (keys.insertNextFlow parent children now) := by
  refine enqueueNextFlowChildren_spares ?_ otherChild parent.id now
  split
  · refine enqueuePreparedJob_spares (setDeduplicationKey_spares spares ?_ parent.id) ?_ _
    · exact otherParent
    · exact otherParent
  · refine deleteDependencies_spares ?_ parent.id
    refine enqueuePreparedJob_spares (setDeduplicationKey_spares spares ?_ parent.id) ?_ _
    · exact otherParent
    · exact otherParent

theorem deduplicationId_continueSeries (ownerJob nextJob : Job) (repeatNextCount : Option Nat)
    : deduplicationId (continueSeries ownerJob nextJob repeatNextCount) = deduplicationId nextJob := by
  cases repeatNextCount <;> rfl

theorem insertNextJob_spares (spares : Spares id base keys) {nextJob : Job}
    (other : deduplicationId nextJob ≠ some id) (ownerJob : Job) (repeatNextCount : Option Nat)
    (now : DateTime)
    : Spares id base (keys.insertNextJob ownerJob nextJob repeatNextCount now) := by
  unfold insertNextJob
  rcases ready : Redis.prepareDeduplicatedNextJob nextJob now with ⟨prepared, scheduledMillis⟩
  have otherPrepared : deduplicationId (continueSeries ownerJob prepared repeatNextCount) ≠ some id := by
    rw [deduplicationId_continueSeries]
    have same : prepared = (Redis.prepareDeduplicatedNextJob nextJob now).1 := by rw [ready]
    rw [same]
    exact other
  have owned := setDeduplicationKey_spares spares otherPrepared nextJob.id
  dsimp only
  generalize continueSeries ownerJob prepared repeatNextCount = next at otherPrepared owned ⊢
  have series : Spares id base
      (if repeatNextCount.isSome then
        (keys.setDeduplicationKey next nextJob.id).setRepeatKey next nextJob.id scheduledMillis
      else
        keys.setDeduplicationKey next nextJob.id) := by
    split
    · exact owned.apart (setRepeatKey_apart _ _ _ _) (owned.within.of_jobs (setRepeatKey_jobs _ _ _ _))
    · exact owned
  have stored := enqueuePreparedJob_spares series otherPrepared scheduledMillis
  exact stored.apart (registerNextChild_apart _ next) (stored.within.registerNextChild next)

/-- Another id's candidate comes in without touching this id. -/
theorem enqueueDeduplicatedNext_spares (spares : Spares id base keys)
    (elsewhere : keys.CandidateElsewhere id job) (now : DateTime)
    : Spares id base (keys.enqueueDeduplicatedNext job now).1 := by
  unfold enqueueDeduplicatedNext
  split
  · exact spares
  · next otherId identified =>
      split
      · exact spares
      · next parent children stored =>
          obtain ⟨different, other⟩ := elsewhere otherId _ identified stored
          unfold enqueueDeduplicatedNextFlow
          split
          · exact deleteNext_spares spares different
          · next parent =>
              split
              · exact deleteNext_spares spares different
              · have otherParent : deduplicationId parent ≠ some id := other parent List.mem_cons_self
                have otherChild : ∀ child ∈ children, deduplicationId child ≠ some id :=
                  fun child member => other child (List.mem_cons_of_mem _ member)
                exact deleteNext_spares (insertNextFlow_spares spares otherParent otherChild now) different
      · next nextJob stored =>
          obtain ⟨different, other⟩ := elsewhere otherId _ identified stored
          split
          · exact deleteNext_spares spares different
          · split
            · exact deleteNext_spares spares different
            · next repeatNextCount _ =>
                have inserted := insertNextJob_spares spares (other nextJob List.mem_cons_self) job
                  repeatNextCount now
                exact deleteNext_spares inserted different

theorem Within.enqueueDeduplicatedNext (within : Within id base keys)
    (elsewhere : keys.CandidateElsewhere id job) (now : DateTime)
    : Within id base (keys.enqueueDeduplicatedNext job now).1 :=
  within.trans (enqueueDeduplicatedNext_spares (.refl id keys) elsewhere now).within

/-- A stored candidate leaves its key, whether or not it comes in. -/
theorem enqueueDeduplicatedNext_candidate (identified : deduplicationId job = some id)
    (now : DateTime)
    : (keys.enqueueDeduplicatedNext job now).1.deduplicationNext id = none := by
  unfold enqueueDeduplicatedNext
  simp only [identified]
  split
  · assumption
  · unfold enqueueDeduplicatedNextFlow
    split
    · exact Function.update_self ..
    · split <;> exact Function.update_self ..
  · split
    · exact Function.update_self ..
    · split <;> exact Function.update_self ..

theorem enqueueDeduplicatedNext_of_none (identified : deduplicationId job = some id)
    (absent : keys.deduplicationNext id = none) (now : DateTime)
    : keys.enqueueDeduplicatedNext job now = (keys, false) := by
  simp [enqueueDeduplicatedNext, identified, absent]

end Keyspace

end Lane
