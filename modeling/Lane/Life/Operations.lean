import Lane.Board.Management
import Lane.Life.Submission

/-! Every public operation is a sequence of turns. -/

namespace Lane

namespace InMemoryJobQueueState

variable {o : Occasion} {s t u : InMemoryJobQueueState} {job : Job} {jobId parentId : JobId}
  {now : DateTime}

-----------------------------------------------------------------------------------------
-- Promotion of due jobs
-----------------------------------------------------------------------------------------

/-- One due job enters the waiting order, and the other records are as they were. -/
theorem turn_promoteDueJob (promoted : Nat) (found : s.jobs.get job.id = some job)
    (delayed : job.state = .delayed) (due : job.scheduledAt ≤ now) (reads : o.reads now)
    : Turn o s.lives [.enters job.id] (promoteDueJob now (s, promoted) job).1.lives
      ∧ ∀ other,
          other ≠ job.id
          → (promoteDueJob now (s, promoted) job).1.jobs.get other = s.jobs.get other := by
  unfold promoteDueJob nextWaitingSequence
  simp only [found]
  constructor
  · rw [emitEventLocked_lives, lives_setJob]
    refine .queued (lives_of_get found) (.inl ?_) ⟨.inr ⟨?_, rfl, rfl, rfl⟩, .inr ⟨?_, rfl⟩,
      .inr ⟨?_, rfl⟩, rfl, rfl, rfl⟩ rfl (.inl ⟨now, reads, due⟩) rfl
    all_goals
      rw [show job.life.state = .delayed from delayed]
      simp [JobState.isTerminal]
  · intro other different
    rw [jobs_of_tables (emitEventLocked_tables _ _ _ _ _ _)]
    simp only [setJob, JobMap.get_insert, if_neg different]

/-- Due jobs enter in their order, by induction on them. -/
theorem turns_promoteDueJobs {dueJobs : List Job} (promoted : Nat)
    (retained : ∀ job ∈ dueJobs, s.jobs.get job.id = some job)
    (due : ∀ job ∈ dueJobs, job.state = .delayed ∧ job.scheduledAt ≤ now)
    (distinct : (dueJobs.map Job.id).Nodup) (reads : o.reads now)
    : Turns o s.lives (dueJobs.map (fun job => .enters job.id))
        (dueJobs.foldl (promoteDueJob now) (s, promoted)).1.lives := by
  induction dueJobs generalizing s promoted with
  | nil => exact .nil s.lives
  | cons job rest ih =>
      rw [List.map_cons, List.nodup_cons] at distinct
      obtain ⟨delayed, reached⟩ := due job List.mem_cons_self
      obtain ⟨first, others⟩ :=
        turn_promoteDueJob promoted (retained job List.mem_cons_self) delayed reached reads
      rw [List.foldl_cons]
      generalize promoteDueJob now (s, promoted) job = middle at first others ⊢
      obtain ⟨t, count⟩ := middle
      refine Turns.cons first (ih count ?_ (fun other member => due other (List.mem_cons_of_mem _ member))
        distinct.2)
      intro other member
      have different : other.id ≠ job.id := by
        intro same
        exact distinct.1 (same ▸ List.mem_map_of_mem member)
      rw [others other.id different]
      exact retained other (List.mem_cons_of_mem _ member)

/-- The delayed jobs that are due at `now`, in the order in which they enter. -/
def dueJobs (s : InMemoryJobQueueState) (now : DateTime) : List Job :=
  (s.jobs.values.filter (fun job => job.state == .delayed && decide (job.scheduledAt ≤ now))).insertionSort
    dueOrder

theorem mem_dueJobs
    : job ∈ s.dueJobs now
      ↔ s.jobs.get job.id = some job ∧ job.state = .delayed ∧ job.scheduledAt ≤ now := by
  unfold dueJobs
  rw [List.mem_insertionSort, List.mem_filter, JobMap.mem_values]
  simp

theorem dueJobs_ids_nodup (s : InMemoryJobQueueState) (now : DateTime)
    : ((s.dueJobs now).map Job.id).Nodup := by
  unfold dueJobs
  refine (((List.perm_insertionSort _ _).map Job.id).nodup_iff).mpr ?_
  exact (JobMap.values_ids_nodup s.jobs).sublist (List.filter_sublist.map Job.id)

theorem turns_promoteDueLocked (s : InMemoryJobQueueState) (reads : o.reads now)
    : Turns o s.lives ((s.dueJobs now).map (fun job => .enters job.id)) (s.promoteDueLocked now).1.lives :=
  turns_promoteDueJobs 0 (fun _ member => (mem_dueJobs.mp member).1)
    (fun _ member => (mem_dueJobs.mp member).2) (dueJobs_ids_nodup s now) reads

-----------------------------------------------------------------------------------------
-- Removal
-----------------------------------------------------------------------------------------

/-- Removals with their events, by induction on the ids. -/
theorem turned_removeWithEvents (s : InMemoryJobQueueState) (jobIds : List JobId)
    (now : DateTime)
    : s.Turned o (removeWithEvents now s jobIds).1 := by
  induction jobIds generalizing s with
  | nil => exact .refl s
  | cons jobId rest ih =>
      have first := turned_removeJobRecordLocked (o := o) s jobId
      unfold removeWithEvents
      split
      · next outcome =>
          rw [outcome] at first
          exact first.trans (ih _)
      · next outcome =>
          rw [outcome] at first
          exact (first.shown (emitRemovedEventLocked_lives _ _ _)).trans (ih _)

theorem turned_removeUnprocessedChildren (s : InMemoryJobQueueState) (parentId : JobId)
    (reads : o.reads now)
    : s.Turned o (s.removeUnprocessedChildren parentId now).1 := by
  unfold removeUnprocessedChildren
  split
  · exact .refl s
  · exact (turned_removeWithEvents s _ now).trans
      (turned_releaseParentIfReadyLocked _ parentId reads)

@[simp] theorem detachChild_lives (parent child : Job) (found : s.jobs.get parent.id = some parent)
    : (s.detachChild parent child).lives = s.lives := by
  unfold detachChild
  simp only
  generalize written_eq : s.setJob _ = written
  have same : written.lives = s.lives := by
    rw [← written_eq]
    exact lives_setJob_same parent found rfl
  have cleared := clearChildDependencySideIndexLocked_lives written parent.id child.id
  generalize (written.clearChildDependencySideIndexLocked parent.id child.id).1 = index at cleared ⊢
  split
  · exact cleared.trans same
  · next stored shown =>
      have kept : index.jobs.get stored.id = some stored := by
        rw [JobMap.get_id shown]
        exact shown
      have orphaned : (index.setJob { stored with parentId := none }).lives = index.lives :=
        lives_setJob_same stored kept rfl
      exact orphaned.trans (cleared.trans same)

theorem turned_removeChildDependency (s : InMemoryJobQueueState) (childId : JobId)
    (reads : o.reads now)
    : s.Turned o (s.removeChildDependency childId now).1 := by
  unfold removeChildDependency
  split
  · exact .refl s
  · next child _ =>
      split
      · exact .refl s
      · next parentId _ =>
          split
          · exact .refl s
          · next parent found =>
              split
              · exact .refl s
              · obtain rfl := JobMap.get_id found
                have released := turned_releaseParentIfReadyLocked (s.detachChild parent child)
                  parent.id reads
                exact released.ahead (detachChild_lives parent child found)

theorem turned_removeAndRelease (s : InMemoryJobQueueState) (jobId : JobId)
    (reads : o.reads now)
    : s.Turned o (s.removeAndRelease jobId now).1 := by
  have first := turned_removeJobRecordLocked (o := o) s jobId
  unfold removeAndRelease
  split
  · next outcome =>
      rw [outcome] at first
      exact first
  · next t removed outcome =>
      rw [outcome] at first
      simp only
      split
      · exact first.shown (emitRemovedEventLocked_lives _ _ _)
      · next parentId _ =>
          exact (first.trans (turned_releaseParentIfReadyLocked t parentId reads)).shown
            (emitRemovedEventLocked_lives _ _ _)

theorem turned_remove (s : InMemoryJobQueueState) (jobId : JobId) (reads : o.reads now)
    : s.Turned o (s.remove jobId now).1 := by
  unfold remove
  split
  · exact .refl s
  · split
    · exact .refl s
    · exact turned_removeAndRelease s jobId reads

theorem lives_removeDeduplicationKey (find : Find) (s : InMemoryJobQueueState)
    (deduplicationId : String) (clock : DateTime)
    : (s.removeDeduplicationKey find deduplicationId clock).1.lives = s.lives := by
  unfold removeDeduplicationKey
  split
  · rfl
  · split <;> rfl

/-- An upserted series drops its owner and admits its new job. -/
theorem turned_upsertRepeat (cron : Cron) (find : Find) (queue : QueueName)
    (s : InMemoryJobQueueState) (spec : JobSpec × JobId) (reads : o.reads now)
    : s.Turned o (s.upsertRepeat cron find queue spec now).1 := by
  have starts : (jobOfSpec queue now spec).Starts o := starts_new reads
  unfold upsertRepeat
  split
  · exact .refl s
  · split
    · exact .refl s
    · simp only
      generalize jobOfSpec queue now spec = job at starts ⊢
      split
      · exact .refl s
      · next repeatKey _ =>
          unfold upsertRepeatLocked
          simp only
          split
          · exact .refl s
          · have inserted (t : InMemoryJobQueueState) : t.Turned o (t.insertCreated job now).1 := by
              unfold Turned
              rw [lives_insertCreated]
              exact turns_admit_over starts
            split
            · exact inserted s
            · exact (turned_removeJobRecordLocked s _).trans (inserted _)

theorem turned_removeRepeat (find : Find) (s : InMemoryJobQueueState) (repeatKey : String)
    (reads : o.reads now)
    : s.Turned o (s.removeRepeat find repeatKey now).1 := by
  unfold removeRepeat
  split
  · exact .refl s
  · split
    · exact .refl s
    · exact turned_removeAndRelease s _ reads

/-- Parents are released one after the other, each at a time that was read. -/
theorem turned_releaseParents (s : InMemoryJobQueueState) {entries : List (JobId × DateTime)}
    (reads : ∀ entry ∈ entries, o.reads entry.2)
    : s.Turned o (s.releaseParents entries) := by
  induction entries generalizing s with
  | nil => exact .refl s
  | cons entry rest ih =>
      obtain ⟨parentId, now⟩ := entry
      have first := turned_releaseParentIfReadyLocked s parentId (reads _ List.mem_cons_self)
      exact first.trans (ih _ (fun other member => reads other (List.mem_cons_of_mem _ member)))

theorem turned_clean (s : InMemoryJobQueueState) (state : JobState) (grace : Duration)
    (limit : Nat) (reads : o.reads now)
    : s.Turned o (s.clean state grace limit now).1 := by
  unfold clean
  split
  · exact .refl s
  · have removed := turned_removeJobRecords (o := o) s
      ((s.cleanableJobs state grace limit now).map Job.id)
    refine Turned.shown (removed.trans (turned_releaseParents _ ?_)) (emitCleanedEventLocked_lives _ _ _)
    intro entry member
    obtain ⟨parentId, _, rfl⟩ := List.mem_map.mp member
    exact reads

theorem turned_drain (find : Find) (s : InMemoryJobQueueState) (includeDelayed : Bool)
    (clock : Nat → DateTime)
    (reads
      : ∀ i < ((s.drainableJobs find includeDelayed).filterMap Job.parentId).length,
          o.reads (clock i))
    : s.Turned o (s.drain find includeDelayed clock).1 := by
  unfold drain
  simp only
  refine (turned_removeJobRecords s _).trans (turned_releaseParents _ ?_)
  intro entry member
  obtain ⟨⟨parentId, i⟩, indexed, rfl⟩ := List.mem_map.mp member
  exact reads i (List.snd_lt_of_mem_zipIdx indexed)

theorem turned_obliterate (s : InMemoryJobQueueState) (force : Bool)
    : s.Turned o (s.obliterate force).1 := by
  unfold obliterate
  simp only
  split
  · exact .of_eq rfl
  · refine .single [] ?_
    generalize emptied_eq : ({ s with paused := false, jobs := _, flowDependencies := _, deduplicationNext := _, deduplicationNextFlows := _, releasedDeduplicationOwners := _ } : InMemoryJobQueueState) = emptied
    have gone : emptied.lives = { s.lives with life := fun _ => none } := by
      rw [← emptied_eq]
      simp [lives]
    rw [gone]
    exact .obliterated

-----------------------------------------------------------------------------------------
-- Rescheduling and manual retry
-----------------------------------------------------------------------------------------

theorem turned_promote (s : InMemoryJobQueueState) (jobId : JobId) (reads : o.reads now)
    : s.Turned o (s.promote jobId now).1 := by
  unfold promote
  split
  · exact .refl s
  · next current found =>
      split
      · exact .refl s
      · next isDelayed =>
          have delayed : current.life.state = .delayed := not_not.mp isDelayed
          obtain rfl := JobMap.get_id found
          refine Turned.shown (Turned.single [.enters current.id] ?_)
            (emitEventLocked_lives _ _ _ _ _ _)
          rw [lives_setJob]
          refine .queued (lives_of_get found) (.inl ?_) ⟨.inr ⟨?_, rfl, rfl, rfl⟩, .inr ⟨?_, rfl⟩,
            .inr ⟨?_, rfl⟩, rfl, rfl, rfl⟩ rfl (.inl ⟨now, reads, le_refl _⟩) rfl
          all_goals
            rw [delayed]
            simp [JobState.isTerminal]

theorem turned_reschedule (s : InMemoryJobQueueState) (jobId : JobId) (delay : Duration)
    (now : DateTime)
    : s.Turned o (s.reschedule jobId delay now).1 := by
  unfold reschedule
  split
  · exact .refl s
  · split
    · exact .refl s
    · next job found =>
        split
        · exact .refl s
        · next isDelayed =>
            have delayed : job.life.state = .delayed := not_not.mp isDelayed
            obtain rfl := JobMap.get_id found
            refine Turned.shown (Turned.single [] ?_) (emitEventLocked_lives _ _ _ _ _ _)
            rw [lives_setJob]
            refine .shelved (lives_of_get found) ?_ ⟨.inr ⟨?_, rfl, rfl, rfl⟩, .inr ⟨?_, rfl⟩,
              .inr ⟨?_, rfl⟩, rfl, rfl, rfl⟩ (.inl delayed)
            all_goals
              rw [delayed]
              simp [JobState.isTerminal]

/-- A retried job enters the waiting order and starts over. -/
theorem turned_retry (find : Find) (s : InMemoryJobQueueState) (jobId : JobId)
    (reads : o.reads now) (retries : o.retries jobId)
    : s.Turned o (s.retry find jobId now).1 := by
  unfold retry
  split
  · exact .refl s
  · next current found =>
      split
      · exact .refl s
      · split
        · exact .refl s
        · obtain rfl := JobMap.get_id found
          simp only
          have forgotten := forgetReleasedDeduplicationOwnerLocked_lives s current
          have jobs : (s.forgetReleasedDeduplicationOwnerLocked current).lives.life current.id
              = some current.life := by
            rw [forgotten]
            exact lives_of_get found
          generalize s.forgetReleasedDeduplicationOwnerLocked current = t at forgotten jobs ⊢
          have retried
              : t.Turned o
                  (t.nextWaitingSequence.1.setJob
                    (retriedJob current t.nextWaitingSequence.2 now)) := by
            refine Turned.single [.enters current.id] ?_
            rw [lives_setJob]
            exact .queued jobs (.inr retries)
              ⟨.inl ⟨rfl, rfl, rfl⟩, .inl rfl, .inl rfl, rfl, rfl, rfl⟩ rfl
              (.inl ⟨now, reads, le_refl _⟩) rfl
          have told := (retried.ahead forgotten).shown (emitEventLocked_lives _ "waiting"
            (some (retriedJob current t.nextWaitingSequence.2 now)) (some current.state) now [])
          split
          · exact told
          · next parentId _ =>
              exact told.trans
                (turned_restoreParentDependencyAfterChildRetryLocked _ parentId current.id now)

-----------------------------------------------------------------------------------------
-- Updates of an active lease
-----------------------------------------------------------------------------------------

theorem turned_renew (s : InMemoryJobQueueState) (jobId : JobId) (lockToken : JobLockToken)
    (leaseFor : Duration) (now : DateTime)
    : s.Turned o (s.renew jobId lockToken leaseFor now).1 := by
  unfold renew
  split
  · exact .refl s
  · next job accepted =>
      obtain ⟨found, active, _⟩ := requireOwnedActive_ok accepted
      obtain rfl := JobMap.get_id found
      refine Turned.single [] ?_
      rw [lives_setJob]
      exact .renewed (lives_of_get found) active

theorem turned_delayActive (s : InMemoryJobQueueState) (jobId : JobId)
    (lockToken : JobLockToken) (delay : Duration) (now : DateTime)
    : s.Turned o (s.delayActive jobId lockToken delay now).1 := by
  unfold delayActive
  split
  · exact .refl s
  · next job accepted =>
      obtain ⟨found, isActive, _⟩ := requireOwnedActive_ok accepted
      have active : job.life.state = .active := isActive
      obtain rfl := JobMap.get_id found
      refine Turned.shown (Turned.single [] ?_) (emitEventLocked_lives _ _ _ _ _ _)
      rw [lives_setJob]
      refine .shelved (lives_of_get found) ?_ ⟨.inl ⟨rfl, rfl, rfl⟩, .inr ⟨?_, rfl⟩,
        .inr ⟨?_, rfl⟩, rfl, rfl, rfl⟩ (.inl rfl)
      all_goals
        rw [active]
        rfl

theorem turned_releaseActive (s : InMemoryJobQueueState) (jobId : JobId)
    (lockToken : JobLockToken) (reads : o.reads now)
    : s.Turned o (s.releaseActive jobId lockToken now).1 := by
  unfold releaseActive
  split
  · exact .refl s
  · next job accepted =>
      obtain ⟨found, isActive, _⟩ := requireOwnedActive_ok accepted
      have active : job.life.state = .active := isActive
      obtain rfl := JobMap.get_id found
      refine Turned.shown (Turned.single [.returns job.id] ?_) (emitEventLocked_lives _ _ _ _ _ _)
      rw [lives_setJob]
      refine .released (lives_of_get found) active ⟨.inl ⟨rfl, rfl, rfl⟩, .inr ⟨?_, rfl⟩,
        .inr ⟨?_, rfl⟩, rfl, rfl, rfl⟩ rfl ⟨now, reads, le_refl _⟩ rfl
      all_goals
        rw [active]
        rfl

-----------------------------------------------------------------------------------------
-- Updates of one record
-----------------------------------------------------------------------------------------

theorem turned_setPriorityOrder (s : InMemoryJobQueueState) (jobId : JobId)
    (priority : JobPriority) (lifo : Option Bool)
    : s.Turned o (s.setPriorityOrder jobId priority lifo).1 := by
  unfold setPriorityOrder
  split
  · exact .refl s
  · split
    · exact .refl s
    · next job found =>
        obtain rfl := JobMap.get_id found
        by_cases waiting : job.state = .waiting
        · simp only [if_pos waiting]
          refine Turned.single [.enters job.id] ?_
          rw [lives_setJob]
          exact .reprioritized (lives_of_get found) waiting
        · simp only [if_neg waiting]
          refine Turned.single [] ?_
          rw [lives_setJob]
          exact .reordered (lives_of_get found) waiting

theorem lives_setData (s : InMemoryJobQueueState) (jobId : JobId) (payload : Value)
    : (s.setData jobId payload).1.lives = s.lives := by
  unfold setData
  split
  · rfl
  · next job found =>
      obtain rfl := JobMap.get_id found
      exact lives_setJob_same job found rfl

theorem lives_setProgress (s : InMemoryJobQueueState) (jobId : JobId) (progress : Value)
    (clock : DateTime)
    : (s.setProgress jobId progress clock).1.lives = s.lives := by
  unfold setProgress
  split
  · rfl
  · next job found =>
      obtain rfl := JobMap.get_id found
      simp only [emitEventLocked_lives]
      exact lives_setJob_same job found rfl

theorem lives_saveStacktrace (s : InMemoryJobQueueState) (jobId : JobId)
    (stacktrace : List String) (failedReason : String)
    : (s.saveStacktrace jobId stacktrace failedReason).1.lives = s.lives := by
  unfold saveStacktrace
  split
  · rfl
  · next job found =>
      obtain rfl := JobMap.get_id found
      exact lives_setJob_same job found rfl

theorem lives_log (s : InMemoryJobQueueState) (jobId : JobId) (line : String) (keep : Nat)
    (now : DateTime)
    : (s.log jobId line keep now).1.lives = s.lives := by
  unfold log
  split
  · rfl
  · next job found =>
      obtain rfl := JobMap.get_id found
      exact lives_setJob_same job found rfl

theorem lives_clearLogs (s : InMemoryJobQueueState) (jobId : JobId) (keep : Nat)
    : (s.clearLogs jobId keep).1.lives = s.lives := by
  unfold clearLogs
  split
  · rfl
  · next job found =>
      obtain rfl := JobMap.get_id found
      exact lives_setJob_same job found rfl

end InMemoryJobQueueState

end Lane
