import Lane.Board.Keys
import Lane.Job.UnprocessedChildren

/-! The operations on retained jobs, as changes of the board. -/

namespace Lane

namespace InMemoryJobQueueState

variable {s : InMemoryJobQueueState} {id jobId : JobId} {job : Job} {now : DateTime}

-----------------------------------------------------------------------------------------
-- Operations that the board does not show
-----------------------------------------------------------------------------------------

theorem board_promote (s : InMemoryJobQueueState) (jobId : JobId) (now : DateTime)
    : (s.promote jobId now).1.board = s.board := by
  unfold promote
  split
  · rfl
  · next current found =>
      split
      · rfl
      · next delayed =>
          have state : current.state = .delayed := by simpa using delayed
          rw [board_of_tables (emitEventLocked_tables _ _ _ _ _ _)]
          refine board_setJob_same (s := s.nextWaitingSequence.1) found rfl ?_
          intro released
          simp [Job.card, state, jobDeduplicationId, failurePolicy,
            childFailureReleasesDependency]

theorem board_reschedule (s : InMemoryJobQueueState) (jobId : JobId) (delay : Duration)
    (now : DateTime)
    : (s.reschedule jobId delay now).1.board = s.board := by
  unfold reschedule
  split
  · rfl
  · split
    · rfl
    · next current found =>
        split
        · rfl
        · rw [board_of_tables (emitEventLocked_tables _ _ _ _ _ _)]
          exact board_setJob_same found rfl (fun _ => rfl)

/-- The owned job of an accepted lease operation is leased under that token. -/
theorem requireOwnedActive_ok {lockToken : JobLockToken} {action : String}
    (accepted : s.requireOwnedActive jobId lockToken action = .ok job)
    : s.jobs.get jobId = some job ∧ job.state = .active ∧ job.lockToken = some lockToken := by
  unfold requireOwnedActive at accepted
  split at accepted
  · cases accepted
  · next found =>
      simp only [requireActive, requireLockToken, bind, Except.bind] at accepted
      split at accepted
      · cases accepted
      · next first =>
          split at accepted
          · cases accepted
          · next second =>
              cases accepted
              split at first
              · next active =>
                  split at second
                  · next token => exact ⟨found, active, token⟩
                  · cases second
              · cases first

/-- The converse: the owner of an active job passes the check. -/
theorem requireOwnedActive_of_owned {lockToken : JobLockToken} (action : String)
    (found : s.jobs.get jobId = some job) (active : job.state = .active)
    (token : job.lockToken = some lockToken)
    : s.requireOwnedActive jobId lockToken action = .ok job := by
  unfold requireOwnedActive
  simp [found, requireActive, requireLockToken, active, token, bind, Except.bind, pure, Except.pure]

theorem board_renew (s : InMemoryJobQueueState) (jobId : JobId) (lockToken : JobLockToken)
    (leaseFor : Duration) (now : DateTime)
    : (s.renew jobId lockToken leaseFor now).1.board = s.board := by
  unfold renew
  split
  · rfl
  · next job accepted =>
      have found := (requireOwnedActive_ok accepted).1
      exact board_setJob_same found rfl (fun _ => rfl)

theorem board_setPriorityOrder (s : InMemoryJobQueueState) (jobId : JobId)
    (priority : JobPriority) (lifo : Option Bool)
    : (s.setPriorityOrder jobId priority lifo).1.board = s.board := by
  unfold setPriorityOrder
  split
  · rfl
  · split
    · rfl
    · next job found =>
        simp only
        split
        · exact board_setJob_same (s := s.nextWaitingSequence.1) found rfl (fun _ => rfl)
        · exact board_setJob_same found rfl (fun _ => rfl)

theorem board_setData (s : InMemoryJobQueueState) (jobId : JobId) (payload : Value)
    : (s.setData jobId payload).1.board = s.board := by
  unfold setData
  split
  · rfl
  · next job found => exact board_setJob_same found rfl (fun _ => rfl)

theorem board_setProgress (s : InMemoryJobQueueState) (jobId : JobId) (progress : Value)
    (clock : DateTime)
    : (s.setProgress jobId progress clock).1.board = s.board := by
  unfold setProgress
  split
  · rfl
  · next job found =>
      rw [board_of_tables (emitEventLocked_tables _ _ _ _ _ _)]
      exact board_setJob_same found rfl (fun _ => rfl)

theorem board_saveStacktrace (s : InMemoryJobQueueState) (jobId : JobId)
    (stacktrace : List String) (failedReason : String)
    : (s.saveStacktrace jobId stacktrace failedReason).1.board = s.board := by
  unfold saveStacktrace
  split
  · rfl
  · next job found => exact board_setJob_same found rfl (fun _ => rfl)

theorem board_log (s : InMemoryJobQueueState) (jobId : JobId) (line : String) (keep : Nat)
    (now : DateTime)
    : (s.log jobId line keep now).1.board = s.board := by
  unfold log
  split
  · rfl
  · next job found => exact board_setJob_same found rfl (fun _ => rfl)

theorem board_clearLogs (s : InMemoryJobQueueState) (jobId : JobId) (keep : Nat)
    : (s.clearLogs jobId keep).1.board = s.board := by
  unfold clearLogs
  split
  · rfl
  · next job found => exact board_setJob_same found rfl (fun _ => rfl)

/-- Promoting due jobs one after the other leaves the board alone: by induction on the jobs,
each of them is ready before and after.
-/
theorem board_foldl_promoteDueJob (dueJobs : List Job) (s : InMemoryJobQueueState)
    (promoted : Nat)
    (ready
      : ∀ job ∈ dueJobs, ∀ card, s.board.cards job.id = some card → card.phase = .ready)
    : (dueJobs.foldl (promoteDueJob now) (s, promoted)).1.board = s.board := by
  induction dueJobs generalizing s promoted with
  | nil => rfl
  | cons job rest ih =>
      have step
          : ∃ count, ∃ t, promoteDueJob now (s, promoted) job = (t, count) ∧ t.board = s.board := by
        unfold promoteDueJob
        simp only
        split
        · exact ⟨_, _, rfl, rfl⟩
        · next found =>
            have shown := ready job List.mem_cons_self _ (board_cards_of_get found)
            refine ⟨_, _, rfl, ?_⟩
            rw [board_of_tables (emitEventLocked_tables _ _ _ _ _ _)]
            refine board_setJob_same (s := s.nextWaitingSequence.1) found rfl ?_
            intro released
            simp only [Job.card] at shown
            simp [Job.card, shown, jobDeduplicationId, failurePolicy,
              childFailureReleasesDependency]
      obtain ⟨count, t, stepped, same⟩ := step
      rw [List.foldl_cons, stepped, ih t count, same]
      intro other member card shown
      rw [same] at shown
      exact ready other (List.mem_cons_of_mem job member) card shown

theorem board_promoteDueLocked (s : InMemoryJobQueueState) (now : DateTime)
    : (s.promoteDueLocked now).1.board = s.board := by
  unfold promoteDueLocked
  apply board_foldl_promoteDueJob
  intro job member card shown
  rw [List.mem_insertionSort, List.mem_filter] at member
  rw [board_cards_of_get (JobMap.mem_values.mp member.1)] at shown
  obtain rfl := Option.some.inj shown
  have delayed : job.state = .delayed := by
    have both := member.2
    simp only [Bool.and_eq_true, beq_iff_eq] at both
    exact both.1
  simp [Job.card, delayed]

-----------------------------------------------------------------------------------------
-- Leases
-----------------------------------------------------------------------------------------

/-- The minimum is one of the candidates, by the invariant of its fold. -/
theorem minBy_mem {order : Job → Job → Ordering} {jobs : List Job}
    (least : minBy order jobs = some job)
    : job ∈ jobs := by
  have fold (rest : List Job) (best : Job)
      : (rest.foldl (fun best next => if order best next = .gt then next else best) best)
        ∈ best :: rest := by
    induction rest generalizing best with
    | nil => simp
    | cons next rest ih =>
        rw [List.foldl_cons]
        have member := ih (if order best next = .gt then next else best)
        rcases List.mem_cons.mp member with same | later
        · rw [same]
          split <;> simp
        · exact List.mem_cons_of_mem _ (List.mem_cons_of_mem _ later)
  cases jobs with
  | nil => cases least
  | cons first rest =>
      simp only [minBy, Option.some.injEq] at least
      rw [← least]
      exact fold rest first

/-- A claim leases a ready job. -/
theorem board_claimNext (s : InMemoryJobQueueState) (workerId : JobWorkerId)
    (leaseFor : Duration) (now : DateTime) (lockToken : JobLockToken)
    : (s.claimNext workerId leaseFor now lockToken).1.board = s.board
      ∨ ∃ id card,
          s.board.cards id = some card
          ∧ card.phase = .ready
          ∧ (s.claimNext workerId leaseFor now lockToken).1.board
            = s.board.put id { card with phase := .active, lockToken := some lockToken } := by
  unfold claimNext
  split
  · exact .inl rfl
  · have promoted := board_promoteDueLocked s now
    simp only
    split
    · exact .inl promoted
    · next job least =>
        have member := List.mem_filter.mp (minBy_mem least)
        have found := JobMap.mem_values.mp member.1
        have waiting : job.state = .waiting := by simpa using member.2
        have shown := board_cards_of_get found
        rw [promoted] at shown
        refine .inr ⟨job.id, _, shown, by simp [Job.card, waiting], ?_⟩
        rw [board_of_tables (emitEventLocked_tables _ _ _ _ _ _), board_setJob, promoted]
        rfl

/-- Giving an active job back moves its card to the ready phase. -/
theorem board_delayActive (s : InMemoryJobQueueState) (jobId : JobId)
    (lockToken : JobLockToken) (delay : Duration) (now : DateTime)
    : (s.delayActive jobId lockToken delay now).1.board = s.board
      ∨ s.board.Leased jobId lockToken
        ∧ (s.delayActive jobId lockToken delay now).1.board = s.board.move jobId .ready := by
  unfold delayActive
  split
  · exact .inl rfl
  · next job accepted =>
      obtain ⟨found, active, token⟩ := requireOwnedActive_ok accepted
      refine .inr ⟨⟨_, board_cards_of_get found, by simp [Job.card, active],
        token⟩, ?_⟩
      rw [board_of_tables (emitEventLocked_tables _ _ _ _ _ _)]
      exact board_setJob_move found rfl (fun _ => rfl)

theorem board_releaseActive (s : InMemoryJobQueueState) (jobId : JobId)
    (lockToken : JobLockToken) (now : DateTime)
    : (s.releaseActive jobId lockToken now).1.board = s.board
      ∨ s.board.Leased jobId lockToken
        ∧ (s.releaseActive jobId lockToken now).1.board = s.board.move jobId .ready := by
  unfold releaseActive
  split
  · exact .inl rfl
  · next job accepted =>
      obtain ⟨found, active, token⟩ := requireOwnedActive_ok accepted
      refine .inr ⟨⟨_, board_cards_of_get found, by simp [Job.card, active],
        token⟩, ?_⟩
      rw [board_of_tables (emitEventLocked_tables _ _ _ _ _ _)]
      exact board_setJob_move found rfl (fun _ => rfl)

-----------------------------------------------------------------------------------------
-- Removal
-----------------------------------------------------------------------------------------

end InMemoryJobQueueState

namespace Board

variable {b after : Board} {id parentId childId : JobId} {ids parentIds : List JobId}

/-- Jobs that nobody works on leave the board, then parents are checked one by one. -/
structure Removes (b : Board) (ids parentIds : List JobId) (after : Board) : Prop where
  unleased : ∀ id ∈ ids, ∀ token, ¬ b.Leased id token
  released : ReleasedEach (b.without {id | id ∈ ids}) parentIds after

/-- The checked parents are those that the removed jobs name. -/
def InformsParents (b : Board) (ids parentIds : List JobId) : Prop :=
  ∀ parentId, parentId ∈ parentIds ↔ ∃ id ∈ ids, b.Names id parentId

theorem Removes.settles (removes : b.Removes ids parentIds after) : b.Settles after :=
  (Settles.without b _).trans removes.released.settles

theorem Removes.refl (b : Board) : b.Removes [] [] b where
  unleased := by simp
  released := by
    have same : b.without {id | id ∈ ([] : List JobId)} = b := by simp
    rw [same]
    exact .nil b

theorem informsParents_nil : b.InformsParents [] [] := by
  simp [InformsParents]

/-- Takes a child off a job's list. -/
def unlist (b : Board) (id childId : JobId) : Board :=
  { b with
    cards :=
      Function.update b.cards id
        ((b.cards id).map (fun card =>
          { card with childIds := card.childIds.filter (· != childId) })) }

/-- Clears the parent that a job names. -/
def orphan (b : Board) (id : JobId) : Board :=
  { b with
    cards :=
      Function.update b.cards id ((b.cards id).map (fun card => { card with parentId := none })) }

/-- Takes the deduplication id away from a job. -/
def disown (b : Board) (id : JobId) : Board :=
  { b with
    cards :=
      Function.update b.cards id ((b.cards id).map (fun card => { card with ownerKey := none })) }

theorem unlist_cards (b : Board) (id childId other : JobId)
    : (b.unlist id childId).cards other
      = if other = id then
          (b.cards id).map (fun card =>
            { card with childIds := card.childIds.filter (· != childId) })
        else
          b.cards other := by
  simp [unlist, Function.update_apply]

theorem orphan_cards (b : Board) (id other : JobId)
    : (b.orphan id).cards other
      = if other = id then
          (b.cards id).map (fun card => { card with parentId := none })
        else
          b.cards other := by
  simp [orphan, Function.update_apply]

theorem disown_cards (b : Board) (id other : JobId)
    : (b.disown id).cards other
      = if other = id then
          (b.cards id).map (fun card => { card with ownerKey := none })
        else
          b.cards other := by
  simp [disown, Function.update_apply]

/-- The board of an empty queue. -/
def empty : Board := { cards := fun _ => none, next := fun _ => none, nextFlows := fun _ => none }

end Board

namespace InMemoryJobQueueState

variable {s : InMemoryJobQueueState} {id jobId : JobId} {job : Job} {now : DateTime}

/-- The queue without jobs and candidates shows the empty board. -/
theorem board_empty : ({} : InMemoryJobQueueState).board = .empty := by
  ext1
  · funext id
    simp [board, Board.empty]
  · rfl
  · rfl

/-- An active job with a lock token is leased on the board, and conversely. -/
theorem board_leased_iff {token : JobLockToken}
    : s.board.Leased jobId token
      ↔ ∃ job,
          s.jobs.get jobId = some job ∧ job.state = .active ∧ job.lockToken = some token := by
  constructor
  · rintro ⟨card, shown, active, token⟩
    obtain ⟨job, found, rfl⟩ := board_cards_some shown
    exact ⟨job, found, by simpa [Job.card] using active, token⟩
  · rintro ⟨job, found, active, token⟩
    exact ⟨_, board_cards_of_get found, by simp [Job.card, active], token⟩

theorem board_names_iff {parentId : JobId}
    : s.board.Names jobId parentId
      ↔ ∃ job, s.jobs.get jobId = some job ∧ job.parentId = some parentId := by
  constructor
  · rintro ⟨card, shown, named⟩
    obtain ⟨job, found, rfl⟩ := board_cards_some shown
    exact ⟨job, found, named⟩
  · rintro ⟨job, found, named⟩
    exact ⟨_, board_cards_of_get found, named⟩

theorem releasedEach_releaseParents (s : InMemoryJobQueueState)
    (entries : List (JobId × DateTime))
    : Board.ReleasedEach s.board (entries.map Prod.fst) (s.releaseParents entries).board := by
  induction entries generalizing s with
  | nil => exact .nil _
  | cons entry rest ih =>
      obtain ⟨parentId, now⟩ := entry
      exact .cons (released_releaseParentIfReadyLocked s parentId now) (ih _)

/-- A removal takes the job off the board and checks the parent it names. -/
theorem releasedEach_removeAndRelease (found : s.jobs.get jobId = some job) (now : DateTime)
    : Board.ReleasedEach (s.board.without {jobId}) job.parentId.toList
        (s.removeAndRelease jobId now).1.board := by
  have removed := board_removeJobRecordLocked s jobId
  unfold removeAndRelease
  have known : (s.removeJobRecordLocked jobId).2 = some job := by
    simp [removeJobRecordLocked, found]
  rw [show s.removeJobRecordLocked jobId = ((s.removeJobRecordLocked jobId).1, some job) by
    rw [← known]]
  simp only
  rw [board_of_tables (emitRemovedEventLocked_tables _ _ _), ← removed]
  cases job.parentId with
  | none => exact .nil _
  | some parentId =>
      exact .cons (released_releaseParentIfReadyLocked _ parentId now) (.nil _)

/-- The job, unless it is retained under a lease or not at all. -/
def removableIds (s : InMemoryJobQueueState) (jobId : JobId) : List JobId :=
  match s.jobs.get jobId with
  | none => []
  | some job => if job.state = .active ∧ job.lockToken.isSome then [] else [jobId]

/-- An accepted removal removes the job and informs its parent. -/
theorem removes_removeAndRelease (found : s.jobs.get jobId = some job)
    (removable : requireRemovable job = .ok ()) (now : DateTime)
    : s.removableIds jobId = [jobId]
      ∧ ∃ parentIds,
          s.board.InformsParents [jobId] parentIds
          ∧ s.board.Removes [jobId] parentIds (s.removeAndRelease jobId now).1.board := by
  have unleased : ¬ (job.state = .active ∧ job.lockToken.isSome = true) := by
    intro leased
    simp [requireRemovable, leased] at removable
  refine ⟨by simp [removableIds, found, unleased], job.parentId.toList, ?_, ?_, ?_⟩
  · intro parentId
    simp [board_names_iff, found, Option.mem_toList]
  · intro id member token leased
    obtain rfl : id = jobId := by simpa using member
    obtain ⟨same, again, active, held⟩ := board_leased_iff.mp leased
    rw [found] at again
    obtain rfl := Option.some.inj again
    exact unleased ⟨active, by rw [held]; rfl⟩
  · have only : {id | id ∈ [jobId]} = ({jobId} : Set JobId) := by
      ext id
      simp
    rw [only]
    exact releasedEach_removeAndRelease found now

theorem requireRemovable_error {error : LaneError} (refused : requireRemovable job = .error error)
    : job.state = .active ∧ job.lockToken.isSome = true := by
  unfold requireRemovable at refused
  split at refused
  · next leased => exact leased
  · cases refused

theorem removes_remove (s : InMemoryJobQueueState) (jobId : JobId) (clock : DateTime)
    : ∃ parentIds,
        s.board.InformsParents (s.removableIds jobId) parentIds
        ∧ s.board.Removes (s.removableIds jobId) parentIds (s.remove jobId clock).1.board := by
  unfold remove
  split
  · next absent =>
      refine ⟨[], ?_⟩
      rw [show s.removableIds jobId = [] by simp [removableIds, absent]]
      exact ⟨Board.informsParents_nil, .refl _⟩
  · next job found =>
      split
      · next refused =>
          refine ⟨[], ?_⟩
          have leased := requireRemovable_error refused
          rw [show s.removableIds jobId = [] by simp [removableIds, found, leased]]
          exact ⟨Board.informsParents_nil, .refl _⟩
      · next removable =>
          obtain ⟨only, removes⟩ := removes_removeAndRelease found removable clock
          rw [only]
          exact removes

/-- The jobs that the removal of a repeat series removes. -/
def removableRepeatIds (find : Find) (s : InMemoryJobQueueState) (repeatKey : String)
    : List JobId :=
  match findActiveRepeatKey find s.jobs repeatKey with
  | none => []
  | some job => s.removableIds job.id

theorem removes_removeRepeat (find : Find) (s : InMemoryJobQueueState) (repeatKey : String)
    (clock : DateTime)
    : ∃ parentIds,
        s.board.InformsParents (s.removableRepeatIds find repeatKey) parentIds
        ∧ s.board.Removes (s.removableRepeatIds find repeatKey) parentIds
          (s.removeRepeat find repeatKey clock).1.board := by
  unfold removeRepeat removableRepeatIds
  cases series : findActiveRepeatKey find s.jobs repeatKey with
  | none => exact ⟨[], Board.informsParents_nil, .refl _⟩
  | some job =>
      have found := (carries_of_find series).1
      simp only
      split
      · next refused =>
          refine ⟨[], ?_⟩
          have leased := requireRemovable_error refused
          rw [show s.removableIds job.id = [] by simp [removableIds, found, leased]]
          exact ⟨Board.informsParents_nil, .refl _⟩
      · next removable =>
          obtain ⟨only, removes⟩ := removes_removeAndRelease found removable clock
          rw [only]
          exact removes

/-- Retained jobs of a list inform the parents they name. -/
theorem informsParents_of_retained {jobs : List Job}
    (retained : ∀ job ∈ jobs, s.jobs.get job.id = some job)
    : s.board.InformsParents (jobs.map Job.id) (jobs.filterMap Job.parentId) := by
  intro parentId
  constructor
  · intro member
    obtain ⟨job, inJobs, named⟩ := List.mem_filterMap.mp member
    exact ⟨job.id, List.mem_map_of_mem inJobs,
      board_names_iff.mpr ⟨job, retained job inJobs, named⟩⟩
  · rintro ⟨id, member, names⟩
    obtain ⟨job, inJobs, rfl⟩ := List.mem_map.mp member
    obtain ⟨same, found, named⟩ := board_names_iff.mp names
    rw [retained job inJobs] at found
    obtain rfl := Option.some.inj found
    exact List.mem_filterMap.mpr ⟨job, inJobs, named⟩

theorem mem_cleanableJobs {state : JobState} {grace : Duration} {limit : Nat}
    (member : job ∈ s.cleanableJobs state grace limit now)
    : s.jobs.get job.id = some job
      ∧ job.state = state
      ∧ ∀ token, ¬ s.board.Leased job.id token := by
  have sorted := List.mem_of_mem_take member
  rw [List.mem_insertionSort, List.mem_filter] at sorted
  obtain ⟨stored, chosen⟩ := sorted
  have found := JobMap.mem_values.mp stored
  simp only [Bool.and_eq_true, beq_iff_eq, Bool.or_eq_true, bne_iff_ne, ne_eq,
    Option.isNone_iff_eq_none] at chosen
  refine ⟨found, chosen.1.1, ?_⟩
  intro token leased
  obtain ⟨same, again, active, held⟩ := board_leased_iff.mp leased
  rw [found] at again
  obtain rfl := Option.some.inj again
  rcases chosen.2 with other | unheld
  · exact other (chosen.1.1.symm.trans active)
  · rw [unheld] at held
    cases held

/-- The jobs that one `clean` call removes, none for a limit of zero. -/
def cleanedIds (s : InMemoryJobQueueState) (state : JobState) (grace : Duration)
    (limit : Nat) (now : DateTime)
    : List JobId :=
  (s.cleanableJobs state grace limit now).map Job.id

theorem removes_clean (s : InMemoryJobQueueState) (state : JobState) (grace : Duration)
    (limit : Nat) (now : DateTime)
    : ∃ parentIds,
        s.board.InformsParents (s.cleanedIds state grace limit now) parentIds
        ∧ s.board.Removes (s.cleanedIds state grace limit now) parentIds
          (s.clean state grace limit now).1.board := by
  unfold clean cleanedIds
  split
  · next none =>
      refine ⟨[], ?_⟩
      rw [show s.cleanableJobs state grace limit now = [] by simp [cleanableJobs, none]]
      exact ⟨Board.informsParents_nil, .refl _⟩
  · refine ⟨_, informsParents_of_retained (fun job member => (mem_cleanableJobs member).1),
      ?_, ?_⟩
    · intro id member
      obtain ⟨job, inJobs, rfl⟩ := List.mem_map.mp member
      exact (mem_cleanableJobs inJobs).2.2
    · simp only
      rw [board_of_tables (emitCleanedEventLocked_tables _ _ _), ← board_removeJobRecords]
      have released := releasedEach_releaseParents
        (s.removeJobRecords ((s.cleanableJobs state grace limit now).map Job.id))
        (((s.cleanableJobs state grace limit now).filterMap Job.parentId).map
          (fun parentId => (parentId, now)))
      simpa [Function.comp_def] using released

theorem mem_drainableJobs {find : Find} {includeDelayed : Bool}
    (member : job ∈ s.drainableJobs find includeDelayed)
    : s.jobs.get job.id = some job ∧ job.state.phase = .ready := by
  unfold drainableJobs at member
  rw [List.mem_insertionSort, List.mem_filter] at member
  obtain ⟨stored, chosen⟩ := member
  refine ⟨JobMap.mem_values.mp stored, ?_⟩
  simp only [Bool.or_eq_true, beq_iff_eq, Bool.and_eq_true] at chosen
  rcases chosen with waiting | ⟨⟨_, delayed⟩, _⟩
  · simp [waiting]
  · simp [delayed]

/-- A retained job that is not active is not leased. -/
theorem not_leased_of_get (found : s.jobs.get jobId = some job) (idle : job.state ≠ .active)
    (token : JobLockToken)
    : ¬ s.board.Leased jobId token := by
  intro leased
  obtain ⟨same, again, active, _⟩ := board_leased_iff.mp leased
  rw [found] at again
  obtain rfl := Option.some.inj again
  exact idle active

theorem removes_drain (find : Find) (s : InMemoryJobQueueState) (includeDelayed : Bool)
    (clock : Nat → DateTime)
    : ∃ parentIds,
        s.board.InformsParents ((s.drainableJobs find includeDelayed).map Job.id) parentIds
        ∧ s.board.Removes ((s.drainableJobs find includeDelayed).map Job.id) parentIds
          (s.drain find includeDelayed clock).1.board := by
  unfold drain
  refine ⟨_, informsParents_of_retained (fun job member => (mem_drainableJobs member).1),
    ?_, ?_⟩
  · intro id member token
    obtain ⟨job, inJobs, rfl⟩ := List.mem_map.mp member
    obtain ⟨found, ready⟩ := mem_drainableJobs inJobs
    refine not_leased_of_get found ?_ token
    intro active
    rw [active] at ready
    cases ready
  · simp only
    rw [← board_removeJobRecords]
    have released := releasedEach_releaseParents
      (s.removeJobRecords ((s.drainableJobs find includeDelayed).map Job.id))
      (((s.drainableJobs find includeDelayed).filterMap Job.parentId).zipIdx.map
        (fun entry => (entry.1, clock entry.2)))
    have firsts (ids : List JobId)
        : (ids.zipIdx.map (fun entry => (entry.1, clock entry.2))).map Prod.fst = ids := by
      rw [List.map_map]
      exact List.zipIdx_map_fst 0 ids
    rwa [firsts] at released

/-- Only retained children that are neither active nor finished are collected. -/
theorem mem_removableUnprocessedChildren {childIds : List JobId}
    (member : id ∈ removableUnprocessedChildren s.jobs childIds)
    : ∃ job, s.jobs.get id = some job ∧ job.state ≠ .active ∧ job.state.isTerminal = false := by
  obtain ⟨_, visits⟩ := visits_removableUnprocessedChildren s.jobs childIds
  exact JobMap.removable_iff.mpr ((visits.mem_iff id).mp member).2

theorem board_removeWithEvents (s : InMemoryJobQueueState) (now : DateTime)
    (ids : List JobId)
    : (removeWithEvents now s ids).1.board = s.board.without {id | id ∈ ids} := by
  induction ids generalizing s with
  | nil => simp [removeWithEvents]
  | cons id rest ih =>
      have joined : ({id} : Set JobId) ∪ {other | other ∈ rest} = {other | other ∈ id :: rest} := by
        ext other
        simp
      have removed := board_removeJobRecordLocked s id
      unfold removeWithEvents
      split
      · next absent =>
          rw [absent] at removed
          rw [ih, removed, Board.without_without, joined]
      · next found =>
          rw [found] at removed
          simp only
          rw [ih, board_of_tables (emitRemovedEventLocked_tables _ _ _), removed,
            Board.without_without, joined]

/-- The jobs below a parent that one call removes. -/
def unprocessedIds (s : InMemoryJobQueueState) (parentId : JobId) : List JobId :=
  match s.jobs.get parentId with
  | none => []
  | some parent => removableUnprocessedChildren s.jobs parent.childIds

theorem removes_removeUnprocessedChildren (s : InMemoryJobQueueState) (parentId : JobId)
    (now : DateTime)
    : s.board.Removes (s.unprocessedIds parentId) [parentId]
        (s.removeUnprocessedChildren parentId now).1.board := by
  unfold removeUnprocessedChildren unprocessedIds
  cases found : s.jobs.get parentId with
  | none =>
      refine ⟨by simp, ?_⟩
      have idle : s.board.Released parentId s.board := by
        refine .kept ?_
        intro card shown
        rw [board_cards_none.mpr found] at shown
        cases shown
      simpa using Board.ReleasedEach.cons idle (.nil _)
  | some parent =>
      constructor
      · intro id member token
        obtain ⟨job, stored, idle, _⟩ := mem_removableUnprocessedChildren member
        exact not_leased_of_get stored idle token
      · simp only
        rw [← board_removeWithEvents s now]
        exact .cons (released_releaseParentIfReadyLocked _ parentId now) (.nil _)

-----------------------------------------------------------------------------------------
-- Detached children
-----------------------------------------------------------------------------------------

/-- Detaching takes the child off its parent's list and clears the parent it names. -/
theorem board_detachChild {parent child : Job} (parentFound : s.jobs.get parent.id = some parent)
    : (s.detachChild parent child).board
      = (s.board.unlist parent.id child.id).orphan child.id := by
  unfold detachChild
  simp only
  have unlisted
      : (s.setJob
          { parent with childIds := parent.childIds.filter (· != child.id) }).board
        = s.board.unlist parent.id child.id := by
    rw [board_setJob]
    ext1
    · funext other
      simp only [Board.put_cards, Board.unlist_cards]
      split
      · rw [board_cards_of_get parentFound]
        rfl
      · rfl
    · rfl
    · rfl
  rw [← unlisted]
  generalize s.setJob { parent with childIds := parent.childIds.filter (· != child.id) } = t
  have cleared := clearChildDependencySideIndexLocked_tables t parent.id child.id
  rw [← board_of_tables cleared]
  generalize (t.clearChildDependencySideIndexLocked parent.id child.id).1 = u
  split
  · next absent =>
      ext1
      · funext other
        rw [Board.orphan_cards]
        split
        · next same => rw [same, board_cards_none.mpr absent]; rfl
        · rfl
      · rfl
      · rfl
  · next stored found =>
      obtain same : stored.id = child.id := JobMap.get_id found
      rw [board_setJob]
      ext1
      · funext other
        simp only [Board.put_cards, Board.orphan_cards, same]
        split
        · rw [board_cards_of_get found]
          simp [Job.card, same, jobDeduplicationId, failurePolicy,
            childFailureReleasesDependency]
        · rfl
      · rfl
      · rfl

/-- Removing a dependency detaches the child and checks the parent. -/
theorem board_removeChildDependency (s : InMemoryJobQueueState) (childId : JobId)
    (now : DateTime)
    : (s.removeChildDependency childId now).1.board = s.board
      ∨ ∃ parentId,
          s.board.Names childId parentId
          ∧ (∃ card, s.board.cards parentId = some card)
          ∧ ((s.board.unlist parentId childId).orphan childId).Released parentId
            (s.removeChildDependency childId now).1.board := by
  unfold removeChildDependency
  split
  · exact .inl rfl
  · next child childFound =>
      split
      · exact .inl rfl
      · next parentId named =>
          split
          · exact .inl rfl
          · next parent parentFound =>
              split
              · exact .inl rfl
              · obtain rfl : parent.id = parentId := JobMap.get_id parentFound
                obtain rfl : child.id = childId := JobMap.get_id childFound
                refine .inr ⟨parent.id, board_names_iff.mpr ⟨child, childFound, named⟩,
                  ⟨_, board_cards_of_get parentFound⟩, ?_⟩
                rw [← board_detachChild parentFound]
                exact released_releaseParentIfReadyLocked _ parent.id now

-----------------------------------------------------------------------------------------
-- Released keys, retry and obliteration
-----------------------------------------------------------------------------------------

/-- Removing a key takes it away from an owner and drops what was kept for it. -/
theorem board_removeDeduplicationKey (find : Find) (s : InMemoryJobQueueState)
    (deduplicationId : String) (clock : DateTime)
    : (s.removeDeduplicationKey find deduplicationId clock).1.board = s.board
      ∨ ∃ ownerId,
          s.board.Owns clock deduplicationId ownerId
          ∧ (s.removeDeduplicationKey find deduplicationId clock).1.board
            = (s.board.keep deduplicationId none none).disown ownerId := by
  unfold removeDeduplicationKey
  split
  · exact .inl rfl
  · split
    · exact .inl rfl
    · next owner found =>
        obtain ⟨stored, owns⟩ := owns_of_find found
        refine .inr ⟨owner.id, owns, ?_⟩
        have key : jobDeduplicationId owner = some deduplicationId := by
          have owning := (find.find_some found).2
          unfold ownsDeduplicationId activeDeduplicationId at owning
          simp only [Bool.and_eq_true, beq_iff_eq] at owning
          have active := owning.1
          split at active
          · cases active
          · split at active
            · cases active
            · exact active
        ext1
        · funext other
          rw [Board.disown_cards]
          split
          · next same =>
              subst same
              simp [board, Board.keep, stored, Job.card, key, deduplicationOwnerReleased,
                Option.filter]
          · next different =>
              simp only [board, Board.keep]
              cases present : s.jobs.get other with
              | none => rfl
              | some job =>
                  have distinct : job.id ≠ owner.id := by
                    rw [JobMap.get_id present]
                    exact different
                  simp [Job.card, deduplicationOwnerReleased, distinct]
        · funext other
          by_cases same : other = deduplicationId <;>
            simp [board, Board.keep, Board.disown, same]
        · funext other
          by_cases same : other = deduplicationId <;>
            simp [board, Board.keep, Board.disown, same]

/-- A retry found no other owner of the job's deduplication id or repeat series. -/
structure RetryChecks (s : InMemoryJobQueueState) (job : Job) (now : DateTime) : Prop where
  unowned
    : ∀ key,
        jobDeduplicationId job = some key → ∀ id, id ≠ job.id → ¬ s.board.Owns now key id
  uncarried : ∀ key, job.repeatKey = some key → ∀ id, id ≠ job.id → ¬ s.board.Carries key id

theorem requireRetryable_ok {find : Find} (accepted : s.requireRetryable find job now = .ok ())
    : s.RetryChecks job now := by
  have owner (deduplicationId : String) (own : jobDeduplicationId job = some deduplicationId)
      : findActiveDeduplicationIdExcept find s.jobs s.releasedDeduplicationOwners deduplicationId
          job.id now = none := by
    unfold requireRetryable at accepted
    simp only [own] at accepted
    cases found : findActiveDeduplicationIdExcept find s.jobs s.releasedDeduplicationOwners
        deduplicationId job.id now with
    | none => rfl
    | some existing =>
        simp only [found] at accepted
        cases accepted
  have series (repeatKey : String) (own : job.repeatKey = some repeatKey)
      : findActiveRepeatKeyExcept find s.jobs repeatKey job.id = none := by
    unfold requireRetryable at accepted
    cases found : findActiveRepeatKeyExcept find s.jobs repeatKey job.id with
    | none => rfl
    | some existing =>
        simp only [own, found] at accepted
        split at accepted
        · cases accepted
        · split at accepted <;> cases accepted
  exact ⟨fun key own id different => not_owns_of_findExcept (owner key own) different,
    fun key own id different => not_carries_of_findExcept (series key own) different⟩

/-- A retry puts the job back as ready and may park its parent again. -/
theorem board_retry (find : Find) (s : InMemoryJobQueueState) (jobId : JobId)
    (now : DateTime)
    : (s.retry find jobId now).1.board = s.board
      ∨ ∃ job enqueuedSeq,
          s.jobs.get jobId = some job
          ∧ job.state.isTerminal = true
          ∧ s.RetryChecks job now
          ∧ let ready := s.board.put jobId (retriedJob job enqueuedSeq now).freshCard
            (s.retry find jobId now).1.board = ready
              ∨ ∃ parentId card,
                  job.parentId = some parentId
                  ∧ ready.cards parentId = some card
                  ∧ card.phase.isTerminal = false
                  ∧ card.phase ≠ .active
                  ∧ jobId ∈ card.childIds
                  ∧ (s.retry find jobId now).1.board = ready.move parentId .parked := by
  unfold retry
  split
  · exact .inl rfl
  · next current found =>
      split
      · exact .inl rfl
      · next finished =>
          split
          · exact .inl rfl
          · next accepted =>
              have terminal : current.state.isTerminal = true := by simpa using finished
              obtain rfl : current.id = jobId := JobMap.get_id found
              refine .inr ⟨current,
                (s.forgetReleasedDeduplicationOwnerLocked current).nextWaitingSequence.2, found,
                terminal, requireRetryable_ok accepted, ?_⟩
              simp only
              generalize seq
                : (s.forgetReleasedDeduplicationOwnerLocked current).nextWaitingSequence.2
                  = enqueuedSeq
              have written
                  : (((s.forgetReleasedDeduplicationOwnerLocked current).nextWaitingSequence.1.setJob
                        (retriedJob current enqueuedSeq now)).emitEventLocked "waiting"
                      (some (retriedJob current enqueuedSeq now)) (some current.state) now
                      []).board
                    = s.board.put current.id (retriedJob current enqueuedSeq now).freshCard := by
                rw [board_of_tables (emitEventLocked_tables _ _ _ _ _ _),
                  board_setJob_of_tables (nextWaitingSequence_tables _),
                  board_forget_setJob s
                    (show (retriedJob current enqueuedSeq now).id = current.id from rfl) rfl]
              rw [← written]
              cases parent : current.parentId with
              | none => exact .inl rfl
              | some parentId =>
                  rcases board_restoreParentDependencyAfterChildRetryLocked _ parentId
                    current.id now with same | ⟨card, shown, alive, idle, listed, moved⟩
                  · exact .inl same
                  · exact .inr ⟨parentId, card, rfl, shown, alive, idle, listed, moved⟩

/-- An obliteration clears the board or is refused. -/
theorem board_obliterate (s : InMemoryJobQueueState) (force : Bool)
    : (s.obliterate force).1.board = s.board
      ∨ (force = true ∨ ∀ id token, ¬ s.board.Leased id token)
        ∧ (s.obliterate force).1.board = .empty := by
  unfold obliterate
  simp only
  split
  · exact .inl rfl
  · next accepted =>
      refine .inr ⟨?_, ?_⟩
      · cases force with
        | true => exact .inl rfl
        | false =>
            refine .inr ?_
            intro id token leased
            obtain ⟨job, found, active, _⟩ := board_leased_iff.mp leased
            refine accepted ⟨?_, rfl⟩
            rw [List.any_eq_true]
            exact ⟨job, JobMap.mem_values_of_get found, by simp [active]⟩
      · ext1
        · funext id
          simp [board, Board.empty]
        · rfl
        · rfl

end InMemoryJobQueueState

end Lane
