import Lane.Board.Failures

/-! Records that last: without retention options for failed jobs, an operation that fails jobs for
good removes only failed jobs that ask for it.
-/

namespace Lane

/-- A later record of the same job: with the same options, and in the same state once that is
terminal.
-/
structure Job.Follows (later old : Job) : Prop where
  options : later.options = old.options
  stays : old.state.isTerminal = true → later.state = old.state

theorem Job.Follows.refl (job : Job) : job.Follows job := ⟨rfl, fun _ => rfl⟩

theorem Job.Follows.trans {last later old : Job} (second : last.Follows later)
    (first : later.Follows old)
    : last.Follows old where
  options := second.options.trans first.options
  stays terminal := by
    have same := first.stays terminal
    exact (second.stays (same ▸ terminal)).trans same

namespace InMemoryJobQueueState

/-- No retained job and no kept candidate has a retention option for failed jobs. -/
structure Unretained (s : InMemoryJobQueueState) : Prop where
  jobs : ∀ {id job}, s.jobs.get id = some job → job.options.failedRetention = none
  next
    : ∀ {key job}, s.deduplicationNext.lookup key = some job → job.options.failedRetention = none
  nextFlows
    : ∀ {key flow},
        s.deduplicationNextFlows.lookup key = some flow
        → ∀ job ∈ flow.parent :: flow.children, job.options.failedRetention = none

/-- The job is still retained, it does not ask for its removal when it fails, and nobody's
retention removes it.
-/
structure Lasts (s : InMemoryJobQueueState) (old : Job) : Prop where
  unretained : s.Unretained
  unremoved : old.options.removesFailedImmediately = false
  record : ∃ job, s.jobs.get old.id = some job ∧ job.Follows old

variable {s t : InMemoryJobQueueState} {old job prior failed owner : Job} {id parentId : JobId}
  {now : DateTime}

theorem Unretained.of_tables (unretained : s.Unretained) (same : t.tables = s.tables)
    : t.Unretained := by
  simp only [tables, Prod.mk.injEq] at same
  obtain ⟨jobs, next, flows, _⟩ := same
  refine ⟨?_, ?_, ?_⟩
  · intro id job found
    exact unretained.jobs (jobs ▸ found)
  · intro key job stored
    exact unretained.next (next ▸ stored)
  · intro key flow kept
    exact unretained.nextFlows (flows ▸ kept)

theorem Lasts.of_tables (lasts : s.Lasts old) (same : t.tables = s.tables) : t.Lasts old where
  unretained := lasts.unretained.of_tables same
  unremoved := lasts.unremoved
  record := jobs_of_tables same ▸ lasts.record

/-- A write of a record that follows the one it replaces. -/
theorem Lasts.setJob (lasts : s.Lasts old) (found : s.jobs.get id = some prior)
    (sameId : job.id = prior.id) (follows : job.Follows prior)
    : (s.setJob job).Lasts old where
  unretained := by
    refine ⟨?_, lasts.unretained.next, lasts.unretained.nextFlows⟩
    intro other written shown
    simp only [InMemoryJobQueueState.setJob, JobMap.get_insert] at shown
    split at shown
    · obtain rfl := Option.some.inj shown
      rw [follows.options]
      exact lasts.unretained.jobs found
    · exact lasts.unretained.jobs shown
  unremoved := lasts.unremoved
  record := by
    obtain ⟨current, retained, first⟩ := lasts.record
    simp only [InMemoryJobQueueState.setJob, JobMap.get_insert]
    split
    · next same =>
        rw [same, sameId, JobMap.get_id found, found] at retained
        obtain rfl := Option.some.inj retained
        exact ⟨job, rfl, follows.trans first⟩
    · exact ⟨current, retained, first⟩

/-- A new record under an id of its own. -/
theorem Lasts.insert (lasts : s.Lasts old) (different : old.id ≠ job.id)
    (unretained : job.options.failedRetention = none)
    : (s.setJob job).Lasts old where
  unretained := by
    refine ⟨?_, lasts.unretained.next, lasts.unretained.nextFlows⟩
    intro other written shown
    simp only [InMemoryJobQueueState.setJob, JobMap.get_insert] at shown
    split at shown
    · obtain rfl := Option.some.inj shown
      exact unretained
    · exact lasts.unretained.jobs shown
  unremoved := lasts.unremoved
  record := by
    simp only [InMemoryJobQueueState.setJob, JobMap.get_insert, if_neg different]
    exact lasts.record

theorem jobs_forgetReleasedDeduplicationOwnerLocked (s : InMemoryJobQueueState) (job : Job)
    : (s.forgetReleasedDeduplicationOwnerLocked job).jobs = s.jobs
      ∧ (s.forgetReleasedDeduplicationOwnerLocked job).deduplicationNext = s.deduplicationNext
      ∧ (s.forgetReleasedDeduplicationOwnerLocked job).deduplicationNextFlows
        = s.deduplicationNextFlows := by
  unfold forgetReleasedDeduplicationOwnerLocked
  split <;> exact ⟨rfl, rfl, rfl⟩

theorem Lasts.of_jobs (lasts : s.Lasts old) (jobs : t.jobs = s.jobs)
    (next : t.deduplicationNext = s.deduplicationNext)
    (flows : t.deduplicationNextFlows = s.deduplicationNextFlows)
    : t.Lasts old where
  unretained := by
    refine ⟨?_, ?_, ?_⟩
    · rw [jobs]
      exact lasts.unretained.jobs
    · rw [next]
      exact lasts.unretained.next
    · rw [flows]
      exact lasts.unretained.nextFlows
  unremoved := lasts.unremoved
  record := jobs ▸ lasts.record

theorem Lasts.forget (lasts : s.Lasts old) (job : Job)
    : (s.forgetReleasedDeduplicationOwnerLocked job).Lasts old := by
  obtain ⟨jobs, next, flows⟩ := jobs_forgetReleasedDeduplicationOwnerLocked s job
  exact lasts.of_jobs jobs next flows

/-- The removal of another record. -/
theorem Lasts.removeJobRecordLocked (lasts : s.Lasts old) (different : old.id ≠ id)
    : (s.removeJobRecordLocked id).1.Lasts old := by
  unfold InMemoryJobQueueState.removeJobRecordLocked
  split
  · exact lasts
  · refine Lasts.forget ?_ _
    refine ⟨⟨?_, lasts.unretained.next, lasts.unretained.nextFlows⟩, lasts.unremoved, ?_⟩
    · intro other job shown
      simp only [JobMap.get_remove] at shown
      split at shown
      · cases shown
      · exact lasts.unretained.jobs shown
    · simp only [JobMap.get_remove, if_neg different]
      exact lasts.record

/-- Removals of other records, by induction on their ids. -/
theorem Lasts.removeJobRecords {ids : List JobId} (lasts : s.Lasts old) (apart : old.id ∉ ids)
    : (s.removeJobRecords ids).Lasts old := by
  unfold InMemoryJobQueueState.removeJobRecords
  induction ids generalizing s with
  | nil => exact lasts
  | cons id rest ih =>
      obtain ⟨different, others⟩ := List.ne_and_not_mem_of_not_mem_cons apart
      exact ih (lasts.removeJobRecordLocked different) others

-----------------------------------------------------------------------------------------
-- What the end of an owner admits
-----------------------------------------------------------------------------------------

theorem Lasts.insertCreated (lasts : s.Lasts old) (different : old.id ≠ job.id)
    (unretained : job.options.failedRetention = none)
    : (s.insertCreated job now).1.Lasts old := by
  unfold InMemoryJobQueueState.insertCreated assignWaitingOrder
  simp only
  have forgotten := lasts.forget job
  split
  · refine Lasts.of_tables ?_ (emitJobCreatedEventsLocked_tables _ _ _)
    exact (forgotten.of_tables (nextWaitingSequence_tables _)).insert different unretained
  · refine Lasts.of_tables ?_ (emitJobCreatedEventsLocked_tables _ _ _)
    exact forgotten.insert different unretained

/-- Children of an admitted flow, by induction on them. -/
theorem Lasts.insertAllCreated {children : List Job} (lasts : s.Lasts old)
    (different : ∀ child ∈ children, old.id ≠ child.id)
    (unretained : ∀ child ∈ children, child.options.failedRetention = none)
    : (s.insertAllCreated now children).1.Lasts old := by
  induction children generalizing s with
  | nil => exact lasts
  | cons child rest ih =>
      exact ih
        (lasts.insertCreated (different child List.mem_cons_self)
          (unretained child List.mem_cons_self))
        (fun other member => different other (List.mem_cons_of_mem _ member))
        (fun other member => unretained other (List.mem_cons_of_mem _ member))

theorem Lasts.pushChildId (lasts : s.Lasts old) (parentId childId : JobId)
    : (s.pushChildId parentId childId).Lasts old := by
  unfold InMemoryJobQueueState.pushChildId
  split
  · exact lasts
  · next parent found =>
      split
      · exact lasts
      · exact lasts.setJob found rfl ⟨rfl, fun _ => rfl⟩

theorem Lasts.ne_of_absent (lasts : s.Lasts old) (absent : s.jobs.containsKey id = false)
    : old.id ≠ id := by
  rintro rfl
  obtain ⟨job, found, _⟩ := lasts.record
  rw [JobMap.containsKey_eq_false.mp absent] at found
  cases found

theorem Lasts.erase_next (lasts : s.Lasts old) (key : String)
    : Lasts { s with deduplicationNext := s.deduplicationNext.erase key } old where
  unretained := by
    refine ⟨lasts.unretained.jobs, ?_, lasts.unretained.nextFlows⟩
    intro other job stored
    by_cases same : other = key
    · subst same
      cases (AList.lookup_erase _ _).symm.trans stored
    · exact lasts.unretained.next ((AList.lookup_erase_ne same).symm.trans stored)
  unremoved := lasts.unremoved
  record := lasts.record

theorem Lasts.erase_nextFlows (lasts : s.Lasts old) (key : String)
    : Lasts { s with deduplicationNextFlows := s.deduplicationNextFlows.erase key } old where
  unretained := by
    refine ⟨lasts.unretained.jobs, lasts.unretained.next, ?_⟩
    intro other flow kept
    by_cases same : other = key
    · subst same
      cases (AList.lookup_erase _ _).symm.trans kept
    · exact lasts.unretained.nextFlows ((AList.lookup_erase_ne same).symm.trans kept)
  unremoved := lasts.unremoved
  record := lasts.record

theorem nextKeepLastJob_options (owner candidate : Job) (count : Option Nat) (now : DateTime)
    : (nextKeepLastJob owner candidate count now).options = candidate.options := by
  unfold nextKeepLastJob
  cases count <;> rfl

theorem Lasts.enqueueDeduplicatedNextLocked (lasts : s.Lasts old) (owner : Job) (now : DateTime)
    : (s.enqueueDeduplicatedNextLocked owner now).1.Lasts old := by
  unfold InMemoryJobQueueState.enqueueDeduplicatedNextLocked
  split
  · exact lasts
  · next key _ =>
      split
      · exact lasts
      · next candidate stored =>
          have erased := lasts.erase_next key
          simp only
          split
          · exact erased
          · next count _ =>
              have options := nextKeepLastJob_options owner candidate count now
              generalize nextKeepLastJob owner candidate count now = next at options ⊢
              split
              · exact erased
              · next absent =>
                  have different := lasts.ne_of_absent ((Bool.not_eq_true _).mp absent)
                  have unretained : next.options.failedRetention = none :=
                    options ▸ lasts.unretained.next stored
                  cases next.parentId with
                  | none => exact erased.insertCreated different unretained
                  | some parentId =>
                      exact (erased.pushChildId parentId next.id).insertCreated different unretained

theorem prepareDeduplicatedNextFlow_options {flow : JobFlow}
    (unretained : ∀ job ∈ flow.parent :: flow.children, job.options.failedRetention = none)
    : ∀ job ∈
          (prepareDeduplicatedNextFlow flow now).parent
            :: (prepareDeduplicatedNextFlow flow now).children,
        job.options.failedRetention = none := by
  intro job member
  rcases List.mem_cons.mp member with rfl | member
  · have same : (prepareDeduplicatedNextFlow flow now).parent.options = flow.parent.options := by
      unfold prepareDeduplicatedNextFlow
      simp only
      split <;> rfl
    rw [same]
    exact unretained _ List.mem_cons_self
  · obtain ⟨child, inFlow, rfl⟩ := List.mem_map.mp member
    exact unretained child (List.mem_cons_of_mem _ inFlow)

theorem Lasts.enqueueDeduplicatedNextFlowLocked (lasts : s.Lasts old) (owner : Job)
    (now : DateTime)
    : (s.enqueueDeduplicatedNextFlowLocked owner now).1.Lasts old := by
  unfold InMemoryJobQueueState.enqueueDeduplicatedNextFlowLocked
  split
  · exact lasts
  · next key _ =>
      split
      · exact lasts
      · next flow kept =>
          have erased := lasts.erase_nextFlows key
          simp only
          split
          · exact erased
          · next absent =>
              simp only [Bool.or_eq_true, List.any_eq_true, not_or, not_exists, not_and,
                Bool.not_eq_true] at absent
              have unretained
                  : ∀ job ∈
                        (prepareDeduplicatedNextFlow flow now).parent
                          :: (prepareDeduplicatedNextFlow flow now).children,
                      job.options.failedRetention = none :=
                prepareDeduplicatedNextFlow_options (lasts.unretained.nextFlows kept)
              have parentApart : old.id ≠ (prepareDeduplicatedNextFlow flow now).parent.id := by
                rw [prepareDeduplicatedNextFlow_parent_id]
                exact lasts.ne_of_absent absent.1
              refine Lasts.insertAllCreated
                (erased.insertCreated parentApart (unretained _ List.mem_cons_self)) ?_
                (fun child member => unretained child (List.mem_cons_of_mem _ member))
              intro child member
              obtain ⟨stored, inFlow, rfl⟩ := List.mem_map.mp member
              exact lasts.ne_of_absent (absent.2 stored inFlow)

theorem Lasts.enqueueKeptNext (lasts : s.Lasts old) (owner : Job) (now : DateTime)
    : (s.enqueueKeptNext owner now).1.Lasts old := by
  have first := lasts.enqueueDeduplicatedNextLocked owner now
  unfold InMemoryJobQueueState.enqueueKeptNext
  generalize s.enqueueDeduplicatedNextLocked owner now = outcome at first ⊢
  obtain ⟨u, admitted⟩ := outcome
  cases admitted with
  | some next => exact first
  | none => exact first.enqueueDeduplicatedNextFlowLocked owner now

-----------------------------------------------------------------------------------------
-- What a failure does to the parent
-----------------------------------------------------------------------------------------

theorem Lasts.scheduleParent {parent : Job} (lasts : s.Lasts old)
    (found : s.jobs.get parentId = some parent) (unfinished : parent.state.isTerminal = false)
    (deferredFailure : Option String) (prev : JobState) (now : DateTime)
    : (s.scheduleParent parent deferredFailure prev now).1.Lasts old := by
  unfold InMemoryJobQueueState.scheduleParent
  simp only
  have follows {later : Job} (options : later.options = parent.options) : later.Follows parent := by
    refine ⟨options, ?_⟩
    intro terminal
    rw [unfinished] at terminal
    cases terminal
  split
  · refine Lasts.of_tables ?_ (emitEventLocked_tables _ _ _ _ _ _)
    exact (lasts.of_tables (nextWaitingSequence_tables s)).setJob found rfl (follows rfl)
  · refine Lasts.of_tables ?_ (emitEventLocked_tables _ _ _ _ _ _)
    exact lasts.setJob found rfl (follows rfl)

theorem Lasts.deferParentFailureAfterChildFailureLocked (lasts : s.Lasts old)
    (parentId childId : JobId) (now : DateTime)
    : (s.deferParentFailureAfterChildFailureLocked parentId childId now).1.Lasts old := by
  unfold InMemoryJobQueueState.deferParentFailureAfterChildFailureLocked
  split
  · exact lasts
  · next parent found =>
      split
      · exact lasts
      · next unfinished =>
          exact lasts.scheduleParent found ((Bool.not_eq_true _).mp unfinished) _ _ now

theorem Lasts.continueParentAfterChildFailureLocked (lasts : s.Lasts old) (parentId : JobId)
    (now : DateTime)
    : (s.continueParentAfterChildFailureLocked parentId now).1.Lasts old := by
  unfold InMemoryJobQueueState.continueParentAfterChildFailureLocked
  split
  · exact lasts
  · next parent found =>
      split
      · exact lasts
      · next parked =>
          refine lasts.scheduleParent found ?_ _ _ now
          rw [not_not.mp parked]
          rfl

/-- A parent that fails is removed only when it asks for it. -/
theorem Lasts.failWaitingParentLocked (lasts : s.Lasts old) (parentId : JobId) (reason : String)
    (now : DateTime)
    : (s.failWaitingParentLocked parentId reason now).1.Lasts old := by
  unfold InMemoryJobQueueState.failWaitingParentLocked
  split
  · exact lasts
  · next parent found =>
      split
      · exact lasts
      · next unfinished =>
          have follows : (failedParent parent reason now).Follows parent :=
            ⟨rfl, fun terminal => absurd terminal unfinished⟩
          have sameId : (failedParent parent reason now).id = parent.id := rfl
          have stored := lasts.setJob found sameId follows
          have unretained : parent.options.failedRetention = none := lasts.unretained.jobs found
          rw [← follows.options] at unretained
          simp only [unretained]
          refine Lasts.of_tables ?_ (emitEventLocked_tables _ _ _ _ _ _)
          split
          · next removes =>
              refine stored.removeJobRecordLocked ?_
              rintro rfl
              obtain ⟨current, retained, first⟩ := lasts.record
              rw [found] at retained
              obtain rfl := Option.some.inj retained
              have kept := lasts.unremoved
              rw [← first.options] at kept
              exact Bool.false_ne_true (kept.symm.trans removes)
          · exact stored

theorem Lasts.releaseParentIfReadyLocked (lasts : s.Lasts old) (parentId : JobId) (now : DateTime)
    : (s.releaseParentIfReadyLocked parentId now).1.Lasts old := by
  unfold InMemoryJobQueueState.releaseParentIfReadyLocked
  split
  · exact lasts
  · next parent found =>
      split
      · exact lasts
      · next parked =>
          split
          · exact lasts
          · exact lasts.deferParentFailureAfterChildFailureLocked parentId _ now
          · exact lasts.failWaitingParentLocked parentId _ now
          · refine lasts.scheduleParent found ?_ _ _ now
            rw [not_not.mp parked]
            rfl

theorem Lasts.settleParentOfFailed (lasts : s.Lasts old) (failed : Job) (parentId : JobId)
    (now : DateTime)
    : (s.settleParentOfFailed failed parentId now).Lasts old := by
  unfold InMemoryJobQueueState.settleParentOfFailed
  split
  · exact lasts.deferParentFailureAfterChildFailureLocked parentId _ now
  · split
    · exact lasts.continueParentAfterChildFailureLocked parentId now
    · split
      · exact lasts.releaseParentIfReadyLocked parentId now
      · exact lasts.failWaitingParentLocked parentId _ now

-----------------------------------------------------------------------------------------
-- Reported failures
-----------------------------------------------------------------------------------------

/-- The records of a job whose failure removes it and of one that lasts are different ones. -/
theorem Lasts.ne_of_removes (lasts : s.Lasts old) (found : s.jobs.get job.id = some job)
    (removes : job.options.removesFailedImmediately = true)
    : old.id ≠ job.id := by
  intro same
  obtain ⟨current, retained, follows⟩ := lasts.record
  rw [same, found] at retained
  obtain rfl := Option.some.inj retained
  have kept := lasts.unremoved
  rw [← follows.options, removes] at kept
  cases kept

theorem Lasts.settleFailed (lasts : s.Lasts old) (found : s.jobs.get failed.id = some failed)
    (now : DateTime)
    : (s.settleFailed failed now).Lasts old := by
  have unretained : failed.options.failedRetention = none := lasts.unretained.jobs found
  unfold InMemoryJobQueueState.settleFailed
  have recorded := lasts.of_tables (recordTerminalChild_tables s failed.parentId failed)
  simp only [unretained]
  split
  · next removes => exact recorded.removeJobRecordLocked (lasts.ne_of_removes found removes)
  · exact recorded

theorem Lasts.settleTerminalFailure (lasts : s.Lasts old)
    (found : s.jobs.get failed.id = some failed) (now : DateTime)
    : (s.settleTerminalFailure failed now).Lasts old := by
  have enqueued := (lasts.settleFailed found now).enqueueKeptNext failed now
  unfold InMemoryJobQueueState.settleTerminalFailure
  simp only
  cases failed.parentId with
  | none => exact enqueued
  | some parentId => exact enqueued.settleParentOfFailed failed parentId now

/-- What lasts while the failed record is written lasts through the report. -/
theorem Lasts.failActiveJob {jobId : JobId} {lockToken : JobLockToken} {error : String}
    {allowRetry : Bool} (accepted : s.requireOwnedActive jobId lockToken "fail" = .ok job)
    (terminal : failsTerminally job allowRetry = true)
    (lasts : (s.setJob (failedJob job error now allowRetry)).Lasts old)
    : (s.failActiveJob jobId lockToken error now allowRetry).1.Lasts old := by
  have state := failedJob_state job error now allowRetry
  rw [terminal, if_pos rfl] at state
  unfold InMemoryJobQueueState.failActiveJob
  simp only [accepted]
  generalize failedJob job error now allowRetry = failed at lasts state ⊢
  rw [if_pos state, if_pos state]
  have found : (s.setJob failed).jobs.get failed.id = some failed := by
    simp only [InMemoryJobQueueState.setJob, JobMap.get_insert, if_true]
  have settled := lasts.settleTerminalFailure found now
  refine Lasts.of_tables ?_ (emitDrainedEventIfNeededLocked_tables _ _)
  split
  · exact (settled.of_tables (emitEventLocked_tables _ _ _ _ _ _)).of_tables
      (emitRetriesExhaustedEventLocked_tables _ _ _)
  · exact settled.of_tables (emitEventLocked_tables _ _ _ _ _ _)

-----------------------------------------------------------------------------------------
-- Stalled recovery
-----------------------------------------------------------------------------------------

theorem stalledJob_follows (active : job.state = .active) {later : Job}
    (options : later.options = job.options)
    : later.Follows job := by
  refine ⟨options, ?_⟩
  intro terminal
  rw [active] at terminal
  cases terminal

/-- Writing a record leaves the records of the other jobs. -/
theorem retained_setJob {rest : List Job} {written : Job}
    (retained : ∀ other ∈ rest, s.jobs.get other.id = some other)
    (apart : written.id ∉ rest.map Job.id)
    : ∀ other ∈ rest, (s.setJob written).jobs.get other.id = some other := by
  intro other member
  simp only [setJob]
  rw [JobMap.get_insert, if_neg]
  · exact retained other member
  · intro same
    exact apart (same ▸ List.mem_map_of_mem member)

/-- The first loop writes stalled jobs only, none of which is terminal; by induction on them. -/
theorem Lasts.sweepStalled {stalled : List Job} (lasts : s.Lasts old)
    (retained : ∀ job ∈ stalled, s.jobs.get job.id = some job)
    (distinct : (stalled.map Job.id).Nodup) (active : ∀ job ∈ stalled, job.state = .active)
    : (InMemoryJobQueueState.sweepStalled now s stalled).1.Lasts old := by
  induction stalled generalizing s with
  | nil => exact lasts
  | cons job rest ih =>
      rw [List.map_cons, List.nodup_cons] at distinct
      have found := retained job List.mem_cons_self
      have ties := stalledJob_ties job now
      have others : ∀ other ∈ rest, s.jobs.get other.id = some other :=
        fun other member => retained other (List.mem_cons_of_mem job member)
      have apart : (stalledJob job now).id ∉ rest.map Job.id := by
        rw [ties.id]
        exact distinct.1
      have running : ∀ other ∈ rest, other.state = .active :=
        fun other member => active other (List.mem_cons_of_mem job member)
      have follows {later : Job} (options : later.options = job.options) : later.Follows job :=
        stalledJob_follows (active job List.mem_cons_self) options
      unfold InMemoryJobQueueState.sweepStalled
      simp only [found]
      split
      · exact ih (lasts.setJob found ties.id (follows ties.options)) (retained_setJob others apart)
          distinct.2 running
      · have drawn := lasts.of_tables (nextWaitingSequence_tables s)
        exact ih (drawn.setJob found ties.id (follows ties.options)) (retained_setJob others apart)
          distinct.2 running

/-- A stalled job that fails for good and lasts is failed after the first loop, by induction on the
stalled jobs: what comes before it leaves it alone, and what comes after it too.
-/
theorem lasts_sweepStalled {stalled : List Job} (lasts : s.Lasts job) (member : job ∈ stalled)
    (terminal : stallsTerminally job = true)
    (retained : ∀ job ∈ stalled, s.jobs.get job.id = some job)
    (distinct : (stalled.map Job.id).Nodup) (active : ∀ job ∈ stalled, job.state = .active)
    : (sweepStalled now s stalled).1.Lasts (stalledJob job now) := by
  induction stalled generalizing s with
  | nil => cases member
  | cons head rest ih =>
      rw [List.map_cons, List.nodup_cons] at distinct
      have found := retained head List.mem_cons_self
      have ties := stalledJob_ties head now
      have state := stalledJob_state head now
      have others : ∀ other ∈ rest, s.jobs.get other.id = some other :=
        fun other member => retained other (List.mem_cons_of_mem head member)
      have apart : (stalledJob head now).id ∉ rest.map Job.id := by
        rw [ties.id]
        exact distinct.1
      have running : ∀ other ∈ rest, other.state = .active :=
        fun other member => active other (List.mem_cons_of_mem head member)
      have follows {later : Job} (options : later.options = head.options) : later.Follows head :=
        stalledJob_follows (active head List.mem_cons_self) options
      unfold sweepStalled
      simp only [found]
      rcases List.mem_cons.mp member with rfl | member
      · rw [terminal, if_pos rfl] at state
        rw [if_pos state]
        refine Lasts.sweepStalled ?_ (retained_setJob others apart) distinct.2 running
        refine ⟨(lasts.setJob found ties.id (follows ties.options)).unretained, ?_, ?_⟩
        · rw [ties.options]
          exact lasts.unremoved
        · refine ⟨stalledJob job now, ?_, .refl _⟩
          simp only [setJob, JobMap.get_insert, if_true]
      · split
        · exact ih (lasts.setJob found ties.id (follows ties.options)) member
            (retained_setJob others apart) distinct.2 running
        · have drawn := lasts.of_tables (nextWaitingSequence_tables s)
          exact ih (drawn.setJob found ties.id (follows ties.options)) member
            (retained_setJob others apart) distinct.2 running

theorem Lasts.settleStalledFailure (lasts : s.Lasts old)
    (unretained : failed.options.failedRetention = none) (now : DateTime)
    : (InMemoryJobQueueState.settleStalledFailure now s failed).Lasts old := by
  unfold InMemoryJobQueueState.settleStalledFailure
  have recorded := lasts.of_tables (recordTerminalChild_tables s failed.parentId failed)
  simp only [unretained]
  exact recorded.enqueueKeptNext failed now

theorem Lasts.settleStalledFailures {failures : List Job} (lasts : s.Lasts old)
    (unretained : ∀ failed ∈ failures, failed.options.failedRetention = none) (now : DateTime)
    : (failures.foldl (InMemoryJobQueueState.settleStalledFailure now) s).Lasts old := by
  induction failures generalizing s with
  | nil => exact lasts
  | cons failed rest ih =>
      exact ih (lasts.settleStalledFailure (unretained failed List.mem_cons_self) now)
        (fun other member => unretained other (List.mem_cons_of_mem _ member))

theorem Lasts.settleStalledParents (lasts : s.Lasts old) (failures : List Job) (now : DateTime)
    : (failures.foldl (settleStalledParent now) s).Lasts old := by
  induction failures generalizing s with
  | nil => exact lasts
  | cons failed rest ih =>
      refine ih ?_
      unfold settleStalledParent
      cases failed.parentId with
      | none => exact lasts
      | some parentId => exact lasts.settleParentOfFailed failed parentId now

theorem Lasts.emitStalledEvents (lasts : s.Lasts old) (events : List Job) (now : DateTime)
    : (events.foldl (InMemoryJobQueueState.emitStalledEvents now) s).Lasts old := by
  induction events generalizing s with
  | nil => exact lasts
  | cons job rest ih =>
      exact ih ((lasts.of_tables (emitEventLocked_tables _ _ _ _ _ _)).of_tables
        (emitEventLocked_tables _ _ _ _ _ _))

/-- What lasts through the first loop of a recovery lasts through the rest of it. -/
theorem Lasts.recoverStalledJobs (lasts : s.Lasts job)
    (swept : (InMemoryJobQueueState.sweepStalled now s (s.stalledJobs now)).1.Lasts old)
    (sameId : old.id = job.id)
    : (s.recoverStalledJobs now).1.Lasts old := by
  unfold InMemoryJobQueueState.recoverStalledJobs
  simp only
  have failures := (board_sweepStalled now s (fun job member => (mem_stalledJobs.mp member).1)
    (s.stalledJobs_ids_nodup now)).2
  generalize InMemoryJobQueueState.sweepStalled now s (s.stalledJobs now) = outcome
    at swept failures ⊢
  obtain ⟨u, processed, events⟩ := outcome
  simp only at swept failures ⊢
  have origin {failed : Job} (member : failed ∈ processed)
      : ∃ stalled,
          s.jobs.get stalled.id = some stalled
          ∧ failed.id = stalled.id
          ∧ failed.options = stalled.options := by
    rw [failures] at member
    obtain ⟨stalled, inFilter, rfl⟩ := List.mem_map.mp member
    have ties := stalledJob_ties stalled now
    exact ⟨stalled, (mem_stalledJobs.mp (List.mem_filter.mp inFilter).1).1, ties.id, ties.options⟩
  have apart
      : old.id
        ∉ (processed.filter (fun job => job.options.removesFailedImmediately)).map Job.id := by
    intro removed
    obtain ⟨failed, inFilter, same⟩ := List.mem_map.mp removed
    obtain ⟨member, removes⟩ := List.mem_filter.mp inFilter
    obtain ⟨stalled, found, failedId, options⟩ := origin member
    refine lasts.ne_of_removes found (options ▸ removes) ?_
    rw [← sameId, ← same, failedId]
  have unretained : ∀ failed ∈ processed, failed.options.failedRetention = none := by
    intro failed member
    obtain ⟨stalled, found, _, options⟩ := origin member
    rw [options]
    exact lasts.unretained.jobs found
  have settled := (swept.removeJobRecords apart).settleStalledFailures unretained now
  exact ((((settled.settleStalledParents _ now).settleStalledParents _ now).settleStalledParents _
    now).settleStalledParents _ now).emitStalledEvents events now

end InMemoryJobQueueState

end Lane
