import Lane.Board.Processing
import Lane.Life.Life

/-! Which turns the helpers under the lock take: bookkeeping takes none, and every write of a
record is one turn of its life.
-/

namespace Lane

namespace InMemoryJobQueueState

variable {o : Occasion} {s t u : InMemoryJobQueueState} {job : Job} {jobId parentId : JobId}
  {now : DateTime}

-----------------------------------------------------------------------------------------
-- Sequences of turns between states
-----------------------------------------------------------------------------------------

theorem Turned.of_eq (same : t.lives = s.lives) : s.Turned o t :=
  ⟨[], same.symm ▸ .nil s.lives⟩

theorem Turned.refl (s : InMemoryJobQueueState) : s.Turned o s := .of_eq rfl

theorem Turned.single (marks : List Mark) (turn : Turn o s.lives marks t.lives) : s.Turned o t :=
  ⟨marks, .single turn⟩

theorem Turned.trans (first : s.Turned o t) (second : t.Turned o u) : s.Turned o u := by
  obtain ⟨_, turns⟩ := first
  obtain ⟨_, more⟩ := second
  exact ⟨_, turns.trans more⟩

/-- Bookkeeping after the turns does not show. -/
theorem Turned.shown (turned : s.Turned o t) (same : u.lives = t.lives) : s.Turned o u :=
  turned.trans (.of_eq same)

/-- Bookkeeping ahead of the turns does not show. -/
theorem Turned.ahead (turned : t.Turned o u) (same : t.lives = s.lives) : s.Turned o u :=
  (Turned.of_eq same).trans turned

-----------------------------------------------------------------------------------------
-- Bookkeeping
-----------------------------------------------------------------------------------------

@[simp] theorem trimEventsLocked_lives (s : InMemoryJobQueueState) (maxLen : Nat)
    : (s.trimEventsLocked maxLen).1.lives = s.lives := by
  unfold trimEventsLocked
  split <;> rfl

@[simp] theorem emitEventLocked_lives (s : InMemoryJobQueueState) (event : String)
    (job : Option Job) (prev : Option JobState) (timestamp : DateTime)
    (fields : List (String × Value))
    : (s.emitEventLocked event job prev timestamp fields).lives = s.lives := by
  unfold emitEventLocked
  rw [trimEventsLocked_lives]
  rfl

@[simp] theorem emitJobCreatedEventsLocked_lives (s : InMemoryJobQueueState) (job : Job)
    (now : DateTime)
    : (s.emitJobCreatedEventsLocked job now).lives = s.lives := by
  simp [emitJobCreatedEventsLocked]

@[simp] theorem emitRetriesExhaustedEventLocked_lives (s : InMemoryJobQueueState) (job : Job)
    (timestamp : DateTime)
    : (s.emitRetriesExhaustedEventLocked job timestamp).lives = s.lives := by
  simp [emitRetriesExhaustedEventLocked]

@[simp] theorem emitRemovedEventLocked_lives (s : InMemoryJobQueueState) (job : Job)
    (timestamp : DateTime)
    : (s.emitRemovedEventLocked job timestamp).lives = s.lives := by
  simp [emitRemovedEventLocked]

@[simp] theorem emitDuplicatedEventLocked_lives (s : InMemoryJobQueueState) (job : Job)
    (timestamp : DateTime)
    : (s.emitDuplicatedEventLocked job timestamp).lives = s.lives := by
  simp [emitDuplicatedEventLocked]

@[simp] theorem emitCleanedEventLocked_lives (s : InMemoryJobQueueState) (count : Nat)
    (timestamp : DateTime)
    : (s.emitCleanedEventLocked count timestamp).lives = s.lives := by
  simp [emitCleanedEventLocked]

@[simp] theorem emitDeduplicatedEventsLocked_lives (s : InMemoryJobQueueState)
    (owner candidate : Job) (timestamp : DateTime)
    : (s.emitDeduplicatedEventsLocked owner candidate timestamp).lives = s.lives := by
  unfold emitDeduplicatedEventsLocked
  split
  · rfl
  · simp [emitDeduplicationEventsLocked]

@[simp] theorem emitReplacedDeduplicatedOwnerEventsLocked_lives (s : InMemoryJobQueueState)
    (replacement removedOwner : Job) (timestamp : DateTime)
    : (s.emitReplacedDeduplicatedOwnerEventsLocked replacement removedOwner timestamp).lives
      = s.lives := by
  unfold emitReplacedDeduplicatedOwnerEventsLocked
  split
  · rfl
  · simp [emitDeduplicationEventsLocked]

@[simp] theorem emitDrainedEventIfNeededLocked_lives (s : InMemoryJobQueueState)
    (timestamp : DateTime)
    : (s.emitDrainedEventIfNeededLocked timestamp).lives = s.lives := by
  unfold emitDrainedEventIfNeededLocked
  simp only
  split
  · simp
  · rfl

@[simp] theorem clearChildDependencySideIndexLocked_lives (s : InMemoryJobQueueState)
    (parentId childId : JobId)
    : (s.clearChildDependencySideIndexLocked parentId childId).1.lives = s.lives := by
  unfold clearChildDependencySideIndexLocked
  split
  · rfl
  · simp only
    repeat' split
    all_goals rfl

@[simp] theorem recordTerminalChildDependencyLocked_lives (s : InMemoryJobQueueState)
    (parentId : JobId) (child : Job)
    : (s.recordTerminalChildDependencyLocked parentId child).lives = s.lives := by
  unfold recordTerminalChildDependencyLocked
  split
  · rfl
  · split
    · rfl
    · split
      · rfl
      · split
        · rfl
        · split
          · rfl
          · split <;> simp
      · rfl

/-- Recording a child of an optional parent takes no turn. -/
@[simp] theorem recordTerminalChild_lives (s : InMemoryJobQueueState) (parentId : Option JobId)
    (child : Job)
    : (match parentId with
        | none => s
        | some parentId => s.recordTerminalChildDependencyLocked parentId child).lives
      = s.lives := by
  cases parentId <;> simp

@[simp] theorem forgetReleasedDeduplicationOwnerLocked_lives (s : InMemoryJobQueueState)
    (job : Job)
    : (s.forgetReleasedDeduplicationOwnerLocked job).lives = s.lives := by
  unfold forgetReleasedDeduplicationOwnerLocked
  split <;> rfl

-----------------------------------------------------------------------------------------
-- Writes and removals of a record
-----------------------------------------------------------------------------------------

theorem lives_of_get (found : s.jobs.get jobId = some job)
    : s.lives.life jobId = some job.life := by
  simp [lives, found]

@[simp] theorem lives_none : s.lives.life jobId = none ↔ s.jobs.get jobId = none := by
  simp [lives]

/-- States with the same lives retain the same ids. -/
theorem absent_of_lives (same : t.lives = s.lives) (absent : s.jobs.get jobId = none)
    : t.jobs.get jobId = none := by
  rw [← lives_none, same, lives_none]
  exact absent

/-- A life belongs to a retained record. -/
theorem lives_some {l : Life} (shown : s.lives.life jobId = some l)
    : ∃ job, s.jobs.get jobId = some job ∧ job.life = l := by
  simpa [lives] using shown

theorem lives_setJob (s : InMemoryJobQueueState) (job : Job)
    : (s.setJob job).lives = s.lives.set job.id (some job.life) := by
  ext1
  · funext id
    simp only [lives, setJob, Lives.set, Function.update_apply, JobMap.get_insert]
    split <;> rfl
  · rfl

/-- A write that keeps the life takes no turn. -/
theorem lives_setJob_same (old : Job) (found : s.jobs.get job.id = some old) (same : job.life = old.life)
    : (s.setJob job).lives = s.lives := by
  rw [lives_setJob, same]
  ext1
  · funext id
    simp only [Lives.set, Function.update_apply]
    split
    · next isJob => rw [isJob, lives_of_get found]
    · rfl
  · rfl

theorem turned_removeJobRecordLocked (s : InMemoryJobQueueState) (jobId : JobId)
    : s.Turned o (s.removeJobRecordLocked jobId).1 := by
  unfold removeJobRecordLocked
  split
  · exact .refl s
  · refine Turned.shown (Turned.single [] ?_) (forgetReleasedDeduplicationOwnerLocked_lives _ _)
    have dropped
        : ({ s with
              jobs := s.jobs.remove jobId
              flowDependencies := s.flowDependencies.erase jobId }
            : InMemoryJobQueueState).lives
          = s.lives.set jobId none := by
      ext1
      · funext id
        simp only [lives, Lives.set, Function.update_apply, JobMap.get_remove]
        split <;> rfl
      · rfl
    rw [dropped]
    exact .dropped jobId

/-- Removals one after the other, by induction on the ids. -/
theorem turned_removeJobRecords (s : InMemoryJobQueueState) (jobIds : List JobId)
    : s.Turned o (s.removeJobRecords jobIds) := by
  induction jobIds generalizing s with
  | nil => exact .refl s
  | cons jobId rest ih => exact (turned_removeJobRecordLocked s jobId).trans (ih _)

theorem turned_applyFinishedRetentionLocked (s : InMemoryJobQueueState) (state : JobState)
    (retention : JobRetention) (now : DateTime)
    : s.Turned o (s.applyFinishedRetentionLocked state retention now) := by
  unfold applyFinishedRetentionLocked
  cases retention.age <;> cases retention.count
  · exact .refl s
  · exact turned_removeJobRecords s _
  · exact turned_removeJobRecords s _
  · exact (turned_removeJobRecords s _).trans (turned_removeJobRecords _ _)

-----------------------------------------------------------------------------------------
-- Candidates
-----------------------------------------------------------------------------------------

@[simp] theorem clearOwnerExpiration_lives (s : InMemoryJobQueueState) (ownerId : JobId)
    : (s.clearOwnerExpiration ownerId).lives = s.lives := by
  unfold clearOwnerExpiration
  split
  · rfl
  · next owner found =>
      refine lives_setJob_same owner ?_ rfl
      rw [JobMap.get_id found]
      exact found

@[simp] theorem storeDeduplicatedNextLocked_lives (s : InMemoryJobQueueState)
    (candidate existing : Job)
    : (s.storeDeduplicatedNextLocked candidate existing).1.lives = s.lives := by
  unfold storeDeduplicatedNextLocked
  split
  · rfl
  · split
    · rfl
    · simp only
      rw [clearOwnerExpiration_lives]
      rfl

@[simp] theorem storeDeduplicatedNextFlowLocked_lives (s : InMemoryJobQueueState)
    (candidate : JobFlow) (existing : Job)
    : (s.storeDeduplicatedNextFlowLocked candidate existing).1.lives = s.lives := by
  unfold storeDeduplicatedNextFlowLocked
  split
  · rfl
  · split
    · rfl
    · simp only
      rw [clearOwnerExpiration_lives]
      rfl

@[simp] theorem extendDeduplicationExpirationLocked_lives (s : InMemoryJobQueueState)
    (candidate : Job) (existingId : JobId) (now : DateTime)
    : (s.extendDeduplicationExpirationLocked candidate existingId now).1.lives = s.lives := by
  unfold extendDeduplicationExpirationLocked
  split
  · rfl
  · split
    · rfl
    · next existing found =>
        refine lives_setJob_same existing ?_ rfl
        rw [JobMap.get_id found]
        exact found

@[simp] theorem pushChildId_lives (s : InMemoryJobQueueState) (parentId childId : JobId)
    : (s.pushChildId parentId childId).lives = s.lives := by
  unfold pushChildId
  split
  · rfl
  · next parent found =>
      split
      · rfl
      · refine lives_setJob_same parent ?_ rfl
        rw [JobMap.get_id found]
        exact found

-----------------------------------------------------------------------------------------
-- Admission
-----------------------------------------------------------------------------------------

theorem lives_insertSequenced (s : InMemoryJobQueueState) (job : Job) (now : DateTime)
    : (s.insertSequenced job now).1.lives = s.lives.accept job := by
  unfold insertSequenced assignWaitingOrder Lives.accept
  by_cases waiting : job.state = .waiting
  · simp only [if_pos waiting]
    rw [emitJobCreatedEventsLocked_lives, lives_setJob,
      forgetReleasedDeduplicationOwnerLocked_lives]
    rfl
  · simp only [if_neg waiting]
    rw [emitJobCreatedEventsLocked_lives, lives_setJob,
      forgetReleasedDeduplicationOwnerLocked_lives]

theorem lives_insertCreated (s : InMemoryJobQueueState) (job : Job) (now : DateTime)
    : (s.insertCreated job now).1.lives = s.lives.accept job := by
  have forgotten := forgetReleasedDeduplicationOwnerLocked_lives s job
  unfold insertCreated assignWaitingOrder Lives.accept
  by_cases waiting : job.state = .waiting
  · simp only [if_pos waiting]
    rw [emitJobCreatedEventsLocked_lives, lives_setJob, ← forgotten]
    rfl
  · simp only [if_neg waiting]
    rw [emitJobCreatedEventsLocked_lives, lives_setJob, forgotten]

theorem turned_insertCreated (absent : s.jobs.get job.id = none) (starts : job.Starts o)
    : s.Turned o (s.insertCreated job now).1 := by
  unfold Turned
  rw [lives_insertCreated]
  exact turns_admit (lives_none.mpr absent) starts

theorem turned_insertSequenced (absent : s.jobs.get job.id = none) (starts : job.Starts o)
    : s.Turned o (s.insertSequenced job now).1 := by
  unfold Turned
  rw [lives_insertSequenced]
  exact turns_admit (lives_none.mpr absent) starts

/-- New records in a row, by induction on the jobs. -/
theorem turned_insertAllCreated (s : InMemoryJobQueueState) {children : List Job}
    (starts : ∀ child ∈ children, child.Starts o)
    : s.Turned o (s.insertAllCreated now children).1 := by
  induction children generalizing s with
  | nil => exact .refl s
  | cons child rest ih =>
      have first : s.Turned o (s.insertCreated child now).1 := by
        unfold Turned
        rw [lives_insertCreated]
        exact turns_admit_over (starts child List.mem_cons_self)
      exact first.trans (ih _ (fun other member => starts other (List.mem_cons_of_mem _ member)))

theorem turned_enqueueDeduplicatedNextLocked (s : InMemoryJobQueueState) (owner : Job)
    (reads : o.reads now)
    : s.Turned o (s.enqueueDeduplicatedNextLocked owner now).1 := by
  unfold enqueueDeduplicatedNextLocked
  split
  · exact .refl s
  · split
    · exact .refl s
    · simp only
      split
      · exact .of_eq rfl
      · next count _ =>
          generalize next_eq : nextKeepLastJob owner _ count now = next
          have starts : next.Starts o := next_eq ▸ starts_nextKeepLastJob reads
          split
          · exact .of_eq rfl
          · next free =>
              have absent : s.jobs.get next.id = none :=
                JobMap.containsKey_eq_false.mp ((Bool.not_eq_true _).mp free)
              generalize dropped_eq
                : ({ s with deduplicationNext := s.deduplicationNext.erase _ }
                    : InMemoryJobQueueState) = dropped
              have same : dropped.lives = s.lives := dropped_eq ▸ rfl
              cases next.parentId with
              | none =>
                  have admitted : dropped.Turned o (dropped.insertCreated next now).1 :=
                    turned_insertCreated (absent_of_lives same absent) starts
                  exact admitted.ahead same
              | some parentId =>
                  have listed : (dropped.pushChildId parentId next.id).lives = s.lives :=
                    (pushChildId_lives dropped parentId next.id).trans same
                  have admitted
                      : (dropped.pushChildId parentId next.id).Turned o
                          ((dropped.pushChildId parentId next.id).insertCreated next now).1 :=
                    turned_insertCreated (absent_of_lives listed absent) starts
                  exact admitted.ahead listed

theorem turned_enqueueDeduplicatedNextFlowLocked (s : InMemoryJobQueueState) (owner : Job)
    (reads : o.reads now)
    : s.Turned o (s.enqueueDeduplicatedNextFlowLocked owner now).1 := by
  unfold enqueueDeduplicatedNextFlowLocked
  split
  · exact .refl s
  · split
    · exact .refl s
    · next flow _ =>
        simp only
        split
        · exact .of_eq rfl
        · next free =>
            rw [Bool.or_eq_true, not_or] at free
            have absent : s.jobs.get flow.parent.id = none :=
              JobMap.containsKey_eq_false.mp ((Bool.not_eq_true _).mp free.1)
            obtain ⟨parentStarts, childrenStart⟩ :=
              starts_prepareDeduplicatedNextFlow flow reads
            rw [← prepareDeduplicatedNextFlow_parent_id flow now] at absent
            generalize prepareDeduplicatedNextFlow flow now = prepared at absent parentStarts childrenStart ⊢
            generalize dropped_eq
              : ({ s with deduplicationNextFlows := s.deduplicationNextFlows.erase _ }
                  : InMemoryJobQueueState) = dropped
            have same : dropped.lives = s.lives := dropped_eq ▸ rfl
            have parent : dropped.Turned o (dropped.insertCreated prepared.parent now).1 :=
              turned_insertCreated (absent_of_lives same absent) parentStarts
            exact (parent.trans (turned_insertAllCreated _ childrenStart)).ahead same

theorem turned_enqueueKeptNext (s : InMemoryJobQueueState) (owner : Job) (reads : o.reads now)
    : s.Turned o (s.enqueueKeptNext owner now).1 := by
  have first := turned_enqueueDeduplicatedNextLocked s owner reads
  unfold enqueueKeptNext
  split
  · next enqueued =>
      rw [enqueued] at first
      exact first
  · next t refused =>
      rw [refused] at first
      exact first.trans (turned_enqueueDeduplicatedNextFlowLocked t owner reads)

-----------------------------------------------------------------------------------------
-- Flow parents
-----------------------------------------------------------------------------------------

/-- A parent that leaves its lease or its wait keeps nothing of them. -/
theorem cleared_unleasedParent (job : Job) (state : JobState) (deferredFailure : Option String)
    (alive : job.state.isTerminal = false)
    : job.life.Cleared { unleasedParent job state with deferredFailure }.life where
  lease := .inl ⟨rfl, rfl, rfl⟩
  finishedAt := .inl rfl
  returnValue := .inr ⟨alive, rfl⟩
  order := ⟨rfl, rfl, rfl⟩

theorem turned_scheduleParent {deferredFailure : Option String} {prev : JobState}
    (found : s.jobs.get job.id = some job) (alive : job.state.isTerminal = false)
    (reads : o.reads now)
    : s.Turned o (s.scheduleParent job deferredFailure prev now).1 := by
  have cleared := cleared_unleasedParent job (stateAfterDependencies job.scheduledAt now)
    deferredFailure alive
  unfold scheduleParent
  rcases due_stateAfterDependencies job.scheduledAt reads with
    ⟨waiting, due⟩ | delayed
  · simp only [if_pos waiting]
    refine Turned.shown (Turned.single [.enters job.id] ?_) (emitEventLocked_lives _ _ _ _ _ _)
    rw [lives_setJob]
    exact .queued (lives_of_get found) (.inl alive)
      ⟨cleared.lease, cleared.finishedAt, cleared.returnValue, cleared.order⟩ waiting (.inl due)
      rfl
  · have idle : stateAfterDependencies job.scheduledAt now ≠ .waiting := by simp [delayed]
    simp only [if_neg idle]
    refine Turned.shown (Turned.single [] ?_) (emitEventLocked_lives _ _ _ _ _ _)
    rw [lives_setJob]
    exact .shelved (lives_of_get found) alive cleared (.inl delayed)

theorem turned_deferParentFailureAfterChildFailureLocked (s : InMemoryJobQueueState)
    (parentId childId : JobId) (reads : o.reads now)
    : s.Turned o (s.deferParentFailureAfterChildFailureLocked parentId childId now).1 := by
  unfold deferParentFailureAfterChildFailureLocked
  split
  · exact .refl s
  · next parent found =>
      split
      · exact .refl s
      · next alive =>
          obtain rfl := JobMap.get_id found
          exact turned_scheduleParent found ((Bool.not_eq_true _).mp alive) reads

theorem turned_continueParentAfterChildFailureLocked (s : InMemoryJobQueueState)
    (parentId : JobId) (reads : o.reads now)
    : s.Turned o (s.continueParentAfterChildFailureLocked parentId now).1 := by
  unfold continueParentAfterChildFailureLocked
  split
  · exact .refl s
  · next parent found =>
      split
      · exact .refl s
      · next parked =>
          obtain rfl := JobMap.get_id found
          have waits : parent.state = .waitingChildren := not_not.mp parked
          exact turned_scheduleParent found (by rw [waits]; rfl) reads

theorem turned_failWaitingParentLocked (s : InMemoryJobQueueState) (parentId : JobId)
    (reason : String)
    : s.Turned o (s.failWaitingParentLocked parentId reason now).1 := by
  unfold failWaitingParentLocked
  split
  · exact .refl s
  · next parent found =>
      split
      · exact .refl s
      · next alive =>
          obtain rfl := JobMap.get_id found
          have failed : s.Turned o (s.setJob (failedParent parent reason now)) := by
            refine Turned.single [] ?_
            rw [lives_setJob]
            exact .failed (lives_of_get found) ((Bool.not_eq_true _).mp alive) ⟨rfl, rfl, rfl⟩
              ⟨rfl, rfl, rfl⟩
          simp only
          refine Turned.shown ?_ (emitEventLocked_lives _ _ _ _ _ _)
          split
          · exact failed.trans (turned_removeJobRecordLocked _ _)
          · split
            · exact failed
            · exact failed.trans (turned_applyFinishedRetentionLocked _ _ _ _)

theorem turned_releaseParentIfReadyLocked (s : InMemoryJobQueueState) (parentId : JobId)
    (reads : o.reads now)
    : s.Turned o (s.releaseParentIfReadyLocked parentId now).1 := by
  unfold releaseParentIfReadyLocked
  split
  · exact .refl s
  · next parent found =>
      split
      · exact .refl s
      · next parked =>
          obtain rfl := JobMap.get_id found
          have waits : parent.state = .waitingChildren := not_not.mp parked
          split
          · exact .refl s
          · exact turned_deferParentFailureAfterChildFailureLocked s _ _ reads
          · exact turned_failWaitingParentLocked s _ _
          · exact turned_scheduleParent found (by rw [waits]; rfl) reads

theorem turned_restoreParentDependencyAfterChildRetryLocked (s : InMemoryJobQueueState)
    (parentId childId : JobId) (now : DateTime)
    : s.Turned o (s.restoreParentDependencyAfterChildRetryLocked parentId childId now).1 := by
  unfold restoreParentDependencyAfterChildRetryLocked
  split
  · exact .refl s
  · next parent found =>
      split
      · exact .refl s
      · next ended =>
          split
          · exact .refl s
          · obtain rfl := JobMap.get_id found
            have alive : parent.state.isTerminal = false :=
              (Bool.not_eq_true _).mp (fun terminal => ended (.inl terminal))
            have same := clearChildDependencySideIndexLocked_lives s parent.id childId
            have parks
                : s.Turned o
                    ((s.clearChildDependencySideIndexLocked parent.id childId).1.setJob
                      (unleasedParent parent .waitingChildren)) := by
              refine Turned.single [] ?_
              rw [lives_setJob, same]
              have cleared := cleared_unleasedParent parent .waitingChildren none alive
              exact .shelved (lives_of_get found) alive
                ⟨cleared.lease, cleared.finishedAt, cleared.returnValue, cleared.order⟩ (.inr rfl)
            simp only
            split
            · exact parks.shown (emitEventLocked_lives _ _ _ _ _ _)
            · exact parks

end InMemoryJobQueueState

end Lane
