import Lane.Redis.Ownership

/-! One finalization, whichever script makes it: the finished job gives up its key, its
candidate comes in, and a waiting parent may fail and give up its own key.
-/

namespace Lane

namespace Keyspace

open Redis

variable {keys middle after base before recorded : Keyspace} {job updated parent : Job}
variable {jobId childId parentId : JobId} {id : String} {owner : DeduplicationOwner}

-----------------------------------------------------------------------------------------
-- Giving up a key
-----------------------------------------------------------------------------------------

theorem GivesUp.congr (givesUp : keys.GivesUp id job jobId)
    (owned : after.deduplication id = keys.deduplication id)
    (same : deduplicationId updated = deduplicationId job)
    : after.GivesUp id updated jobId :=
  ⟨same.trans givesUp.1, by rw [owned]; exact givesUp.2⟩

theorem release_candidates (keys : Keyspace) (job : Job) (jobId : JobId)
    : (keys.releaseDeduplicationKeyOnFinalization job jobId).deduplicationNext
      = keys.deduplicationNext := by
  unfold releaseDeduplicationKeyOnFinalization
  split
  · rfl
  · split
    · rfl
    · rfl
    · rfl
    · split_ifs <;> rfl

theorem release_jobs (keys : Keyspace) (job : Job) (jobId : JobId)
    : (keys.releaseDeduplicationKeyOnFinalization job jobId).jobs = keys.jobs := by
  unfold releaseDeduplicationKeyOnFinalization
  split
  · rfl
  · split
    · rfl
    · rfl
    · rfl
    · split_ifs <;> rfl

/-- A key that is gone stays gone. -/
theorem release_owner_none (gone : keys.deduplication id = none) (job : Job) (jobId : JobId)
    : (keys.releaseDeduplicationKeyOnFinalization job jobId).deduplication id = none := by
  by_cases givesUp : ∃ otherId, keys.GivesUp otherId job jobId
  · obtain ⟨otherId, givesUp⟩ := givesUp
    rw [releaseDeduplicationKeyOnFinalization_of_givesUp givesUp]
    by_cases same : id = otherId
    · rw [same]
      exact Function.update_self ..
    · exact (Function.update_of_ne same _ _).trans gone
  · have spares := releaseDeduplicationKeyOnFinalization_spares (.refl id keys)
      (fun givesUpId => givesUp ⟨id, givesUpId⟩)
    exact spares.owner.trans gone

/-- What a finalization deletes depends on the keys and on the job's deduplication id only. -/
theorem release_congr (apart : Apart keys after)
    (same : deduplicationId updated = deduplicationId job) (jobId : JobId)
    : Apart (keys.releaseDeduplicationKeyOnFinalization job jobId)
        (after.releaseDeduplicationKeyOnFinalization updated jobId) := by
  refine ⟨?_, ?_⟩
  · unfold releaseDeduplicationKeyOnFinalization
    rw [same, apart.owners]
    split
    · exact apart.owners
    · split
      · exact apart.owners
      · simp only [deleteOwner, apart.owners]
      · exact apart.owners
      · split_ifs
        · simp only [deleteOwner, apart.owners]
        · exact apart.owners
  · rw [release_candidates, release_candidates]
    exact apart.candidates

theorem release_owner_of_givesUp (givesUp : keys.GivesUp id job jobId)
    : (keys.releaseDeduplicationKeyOnFinalization job jobId).deduplication id = none := by
  rw [releaseDeduplicationKeyOnFinalization_of_givesUp givesUp]
  exact Function.update_self ..

-----------------------------------------------------------------------------------------
-- The parent's turn
-----------------------------------------------------------------------------------------

/-- The keys after the parent that failed, if any, gave up its own. -/
def afterParentFailure (keys : Keyspace) : Option (JobId × Job) → Keyspace
  | none => keys
  | some (parentId, parent) => keys.releaseDeduplicationKeyOnFinalization parent parentId

theorem failParent_apart (keys : Keyspace) (parentId : JobId) (parent : Job)
    (failedChildId : JobId) (failedReason : String) (now : DateTime)
    : Apart (keys.releaseDeduplicationKeyOnFinalization parent parentId)
        (keys.failParent parentId parent failedChildId failedReason now) := by
  unfold failParent
  refine Apart.trans ?_ (Apart.trans (releaseRepeatKey_apart _ _ _)
    (Apart.trans (storeFinished_apart _ _ _ _ _ _) ⟨rfl, rfl⟩))
  refine release_congr ?_ ?_ parentId
  · exact ⟨rfl, rfl⟩
  · rfl

theorem failParent_within (within : Within id base keys)
    (carried : deduplicationId parent = some id → base.Carries id parentId) (failedChildId : JobId)
    (failedReason : String) (now : DateTime)
    : Within id base (keys.failParent parentId parent failedChildId failedReason now) := by
  refine Within.collectMetrics (Within.storeFinished ?_ ?_ _ _ _) _ _
  · refine Within.of_jobs (Within.of_jobs ?_ (release_jobs _ _ _)) (releaseRepeatKey_jobs _ _ _)
    exact within
  · exact carried

/-- The parent that a completion fails is the only one that gives up a key. -/
theorem settleParent_apart (keys : Keyspace) (args : CompleteArgs) (updated : Job)
    : Apart (keys.afterParentFailure (keys.parentFailedByCompletion args updated))
        (keys.settleParent args updated) := by
  unfold settleParent parentFailedByCompletion
  cases named : updated.parentId with
  | none => exact .refl keys
  | some parentId =>
      cases found : keys.jobs parentId with
      | none => simpa [found, afterParentFailure] using Apart.refl keys
      | some parent =>
          have recorded := recordProcessedChild_apart keys parentId args
          by_cases waits : parent.state = .waitingChildren
          · cases status : keys.parentStatus parentId parent args updated with
            | failed failedId reason =>
                simp only [found, waits, status, Option.bind_eq_bind, Option.bind_some, if_true]
                exact (release_congr recorded rfl parentId).trans (failParent_apart _ _ _ _ _ _)
            | pending =>
                simpa [found, waits, status, afterParentFailure] using recorded
            | done =>
                simp only [found, waits, status, Option.bind_eq_bind, Option.bind_some, if_true]
                exact recorded.trans (releaseParent_apart _ _ _ _)
          · simpa [found, waits, afterParentFailure] using recorded

theorem releaseParent_within (within : Within id base keys)
    (carried : deduplicationId parent = some id → base.Carries id parentId) (now : DateTime)
    : Within id base (keys.releaseParent parentId parent now) := by
  unfold releaseParent
  dsimp only
  split_ifs
  · refine Within.enqueueWaitingJob ?_ ?_ parent.priority
    · exact within
    · exact carried
  · refine Within.setJob ?_ ?_
    · exact within
    · exact carried

theorem settleParent_within (within : Within id base keys) (args : CompleteArgs) (updated : Job)
    : Within id base (keys.settleParent args updated) := by
  unfold settleParent
  split
  · exact within
  · next parentId named =>
      split
      · exact within
      · next parent found =>
          have carried : deduplicationId parent = some id → base.Carries id parentId :=
            fun carries => within parentId ⟨parent, found, carries⟩
          have recorded := within.of_jobs (recordProcessedChild_jobs keys parentId args)
          dsimp only
          split_ifs
          · split
            · exact failParent_within recorded carried _ _ _
            · exact recorded
            · exact releaseParent_within recorded carried args.now
          · exact recorded

theorem settleFailedChild_apart (keys : Keyspace) (childId : JobId) (job : Job) (now : DateTime)
    : Apart (keys.afterParentFailure (keys.parentFailedByFailure childId job now))
        (keys.settleFailedChild childId job now).1 := by
  unfold settleFailedChild parentFailedByFailure
  cases named : job.parentId with
  | none => exact .refl keys
  | some parentId =>
      cases found : keys.jobs parentId with
      | none => simpa [found, afterParentFailure] using Apart.refl keys
      | some parent =>
          have recorded :=
            recordFailedChild_apart keys parentId childId job (timestampMillis now)
          have decided :=
            parentTurn_apart (keys.recordFailedChild parentId childId job (timestampMillis now))
              parentId parent childId job (timestampMillis now)
          rcases turned
            : (keys.recordFailedChild parentId childId job (timestampMillis now)).parentTurn parentId
                parent childId job (timestampMillis now)
            with ⟨decision, turn⟩
          rw [turned] at decided
          by_cases waits : parent.state = .waitingChildren
          · cases turn with
            | wait =>
                simpa [found, waits, turned, afterParentFailure] using recorded.trans decided
            | release =>
                simp only [found, waits, turned, Option.bind_eq_bind, Option.bind_some, if_true]
                exact (recorded.trans decided).trans ⟨rfl, rfl⟩
            | fail failedId reason =>
                simp only [found, waits, turned, Option.bind_eq_bind, Option.bind_some, if_true]
                exact (release_congr (recorded.trans decided) rfl parentId).trans
                  (failParent_apart _ _ _ _ _ _)
          · simpa [found, waits, afterParentFailure] using recorded

theorem settleFailedChild_within (within : Within id base keys) (childId : JobId) (job : Job)
    (now : DateTime)
    : Within id base (keys.settleFailedChild childId job now).1 := by
  unfold settleFailedChild
  split
  · exact within
  · next parentId named =>
      split
      · exact within
      · next parent found =>
          have carried : deduplicationId parent = some id → base.Carries id parentId :=
            fun carries => within parentId ⟨parent, found, carries⟩
          have recorded := within.of_jobs
            (recordFailedChild_jobs keys parentId childId job (timestampMillis now))
          have decided := recorded.of_jobs
            (parentTurn_jobs _ parentId parent childId job (timestampMillis now))
          dsimp only
          split_ifs
          · split
            · exact decided
            · exact decided
            · exact failParent_within decided carried _ _ _
          · exact recorded

-----------------------------------------------------------------------------------------
-- Finalizations
-----------------------------------------------------------------------------------------

/-- The phases of a finalization, up to writes apart from the deduplication keys: the job gives
up its key, its candidate comes in, and `failed` is the parent that fails with it.
-/
structure Finalizes (job : Job) (jobId : JobId) (now : DateTime) (before recorded after : Keyspace)
    (failed : Option (JobId × Job))
    : Prop where
  record : ∃ released, Apart (before.releaseDeduplicationKeyOnFinalization job jobId) released
    ∧ Apart (released.enqueueDeduplicatedNext job now).1 recorded
  settle : Apart (recorded.afterParentFailure failed) after

/-- The finalization has no reason to touch the deduplication id. -/
structure LeavesAlone (keys : Keyspace) (id : String) (job : Job) (jobId : JobId)
    (failed : Option (JobId × Job))
    : Prop where
  candidate : keys.CandidateElsewhere id job
  key : ¬ keys.GivesUp id job jobId
  parent : ∀ parentId parent, failed = some (parentId, parent) → ¬ keys.GivesUp id parent parentId

variable {now : DateTime} {failed : Option (JobId × Job)}

theorem afterParentFailure_owner_none (gone : keys.deduplication id = none)
    (failed : Option (JobId × Job))
    : (keys.afterParentFailure failed).deduplication id = none := by
  cases failed with
  | none => exact gone
  | some parent => exact release_owner_none gone parent.2 parent.1

theorem afterParentFailure_candidates (keys : Keyspace) (failed : Option (JobId × Job))
    : (keys.afterParentFailure failed).deduplicationNext = keys.deduplicationNext := by
  cases failed with
  | none => rfl
  | some parent => exact release_candidates keys parent.2 parent.1

/-- The record phase leaves key and candidate as they are. -/
theorem Finalizes.record_spares (finalizes : Finalizes job jobId now before recorded after failed)
    (elsewhere : before.CandidateElsewhere id job) (keeps : ¬ before.GivesUp id job jobId)
    : recorded.deduplication id = before.deduplication id
      ∧ recorded.deduplicationNext id = before.deduplicationNext id := by
  obtain ⟨released, release, enqueue⟩ := finalizes.record
  have freed := releaseDeduplicationKeyOnFinalization_spares (.refl id before) keeps
  have candidates : released.deduplicationNext = before.deduplicationNext :=
    release.candidates.trans (release_candidates before job jobId)
  have entered :=
    enqueueDeduplicatedNext_spares (.refl id released) (elsewhere.congr candidates rfl) now
  refine ⟨?_, ?_⟩
  · rw [enqueue.owners, entered.owner, release.owners, freed.owner]
  · rw [enqueue.candidates, entered.candidate, candidates]

/-- A finalization that leaves the id alone writes neither its key nor its candidate. -/
theorem Finalizes.spares (finalizes : Finalizes job jobId now before recorded after failed)
    (leaves : before.LeavesAlone id job jobId failed)
    : after.deduplication id = before.deduplication id
      ∧ after.deduplicationNext id = before.deduplicationNext id := by
  obtain ⟨owner, candidate⟩ := finalizes.record_spares leaves.candidate leaves.key
  refine ⟨?_, ?_⟩
  · rw [finalizes.settle.owners, ← owner]
    cases parentFailed : failed with
    | none => rfl
    | some parent =>
        have keeps : ¬ recorded.GivesUp id parent.2 parent.1 :=
          fun givesUp => leaves.parent parent.1 parent.2 parentFailed (givesUp.congr owner.symm rfl)
        exact (releaseDeduplicationKeyOnFinalization_spares (.refl id recorded) keeps).owner
  · rw [finalizes.settle.candidates, afterParentFailure_candidates, candidate]

/-- A finalization under the id that keeps its key and its candidate left the id alone. -/
theorem Finalizes.leavesAlone (finalizes : Finalizes job jobId now before recorded after failed)
    (identified : deduplicationId job = some id) (owned : after.deduplication id ≠ none)
    (candidate : after.deduplicationNext id = before.deduplicationNext id)
    : before.LeavesAlone id job jobId failed := by
  obtain ⟨released, release, enqueue⟩ := finalizes.record
  have absent : before.deduplicationNext id = none := by
    rw [← candidate, finalizes.settle.candidates, afterParentFailure_candidates, enqueue.candidates]
    exact enqueueDeduplicatedNext_candidate identified now
  have elsewhere : before.CandidateElsewhere id job := by
    intro otherId next otherIdentified stored
    rw [identified] at otherIdentified
    rw [← Option.some.inj otherIdentified, absent] at stored
    cases stored
  have notEntered : (released.enqueueDeduplicatedNext job now).1 = released := by
    rw [enqueueDeduplicatedNext_of_none identified]
    rw [release.candidates, release_candidates, absent]
  have keeps : ¬ before.GivesUp id job jobId := by
    intro givesUp
    have gone : recorded.deduplication id = none := by
      rw [enqueue.owners, notEntered, release.owners]
      exact release_owner_of_givesUp givesUp
    refine owned ?_
    rw [finalizes.settle.owners]
    exact afterParentFailure_owner_none gone failed
  refine ⟨elsewhere, keeps, ?_⟩
  rintro parentId parent rfl givesUp
  have owner := (finalizes.record_spares elsewhere keeps).1
  refine owned ?_
  rw [finalizes.settle.owners]
  exact release_owner_of_givesUp (givesUp.congr owner rfl)

end Keyspace

end Lane
