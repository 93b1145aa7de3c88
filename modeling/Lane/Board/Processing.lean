import Lane.Board.Flows

/-! Completion, failure and stalled recovery on the board. -/

namespace Lane

/-- The record was only processed: it still has the options, the parent and the series of the
job that it was.
-/
structure Job.SameTies (processed job : Job) : Prop where
  id : processed.id = job.id
  options : processed.options = job.options
  parentId : processed.parentId = job.parentId
  repeatKey : processed.repeatKey = job.repeatKey
  repeatCount : processed.repeatCount = job.repeatCount

theorem Job.SameTies.policy {processed job : Job} (ties : processed.SameTies job)
    : failurePolicy processed = failurePolicy job := by
  unfold failurePolicy childFailureReleasesDependency
  rw [ties.options]

theorem Job.SameTies.symm {processed job : Job} (ties : processed.SameTies job)
    : job.SameTies processed :=
  ⟨ties.id.symm, ties.options.symm, ties.parentId.symm, ties.repeatKey.symm,
    ties.repeatCount.symm⟩

theorem Job.SameTies.key {processed job : Job} (ties : processed.SameTies job)
    : jobDeduplicationId processed = jobDeduplicationId job := by
  unfold jobDeduplicationId
  rw [ties.options]

theorem Job.SameTies.nextCount {processed job : Job} (ties : processed.SameTies job)
    (candidate : Job)
    : repeatKeepLastNextCount processed candidate = repeatKeepLastNextCount job candidate := by
  unfold repeatKeepLastNextCount
  rw [ties.options, ties.repeatKey, ties.repeatCount]

theorem Job.SameTies.next {processed job : Job} (ties : processed.SameTies job)
    (candidate : Job) (count : Option Nat) (now : DateTime)
    : nextKeepLastJob processed candidate count now = nextKeepLastJob job candidate count now := by
  unfold nextKeepLastJob
  rw [ties.repeatKey]

namespace Board

/-- The jobs of a candidate that waits for the owner's end, as they would be admitted. -/
inductive Candidate (b : Board) (owner : Job) (now : DateTime) : List Job → Prop
  | job {key : String} {candidate : Job} {repeatNextCount : Option Nat}
    (own : jobDeduplicationId owner = some key) (stored : b.next key = some candidate)
    (counted : repeatKeepLastNextCount owner candidate = some repeatNextCount)
    : Candidate b owner now [nextKeepLastJob owner candidate repeatNextCount now]
  | flow {key : String} {stored : JobFlow}
    (own : jobDeduplicationId owner = some key) (kept : b.nextFlows key = some stored)
    : Candidate b owner now
        ((prepareDeduplicatedNextFlow stored now).parent
          :: (prepareDeduplicatedNextFlow stored now).children)

/-- The end of an owner on the board, with the jobs that it admits: what was kept under its
deduplication id is admitted, or dropped because a retained job has one of its ids.
-/
inductive OwnerEnds (b : Board) (owner : Job) (now : DateTime) : List Job → Board → Prop
  | keyless (own : jobDeduplicationId owner = none) : OwnerEnds b owner now [] b
  | dropped {key : String} (own : jobDeduplicationId owner = some key)
    (occupied
      : ∀ jobs, b.Candidate owner now jobs → ∃ job ∈ jobs, ∃ card, b.cards job.id = some card)
    : OwnerEnds b owner now [] (b.keep key none none)
  | job {key : String} {candidate next : Job} {repeatNextCount : Option Nat}
    (own : jobDeduplicationId owner = some key) (stored : b.next key = some candidate)
    (counted : repeatKeepLastNextCount owner candidate = some repeatNextCount)
    (prepared : next = nextKeepLastJob owner candidate repeatNextCount now)
    (absent : b.cards next.id = none)
    : OwnerEnds b owner now [next]
        (((b.adopt next).put next.id next.freshCard).keep key none (b.nextFlows key))
  | flow {key : String} {stored flow : JobFlow}
    (own : jobDeduplicationId owner = some key) (kept : b.nextFlows key = some stored)
    (prepared : flow = prepareDeduplicatedNextFlow stored now)
    (absent : ∀ job ∈ flow.parent :: flow.children, b.cards job.id = none)
    : OwnerEnds b owner now (flow.parent :: flow.children)
        ((b.putAll (flow.parent :: flow.children)).keep key none none)

/-- What the terminal failure of a job does to the parent it names. -/
def FailureReported (b : Board) (failed : Job) (after : Board) : Prop :=
  match failed.parentId with
  | none => after = b
  | some parentId => b.ParentSettled parentId (failurePolicy failed) after

/-- The end of a completion: the job's successor is what was kept for it, or else the next
occurrence of its repeat series, and then the parent's release is checked.
-/
inductive Completes (cron : Cron) (b : Board) (job : Job) (now : DateTime) (uuid : JobId)
    : Board → Prop
  | stopped {ended : Board} {error : LaneError} (ends : b.OwnerEnds job now [] ended)
    (scheduled : nextRepeatJob cron job now uuid = .error error)
    : Completes cron b job now uuid ended
  | finished {admitted : List Job} {ended after : Board}
    (ends : b.OwnerEnds job now admitted ended)
    (last : admitted ≠ [] ∨ nextRepeatJob cron job now uuid = .ok none)
    (released : ReleasedEach ended job.parentId.toList after)
    : Completes cron b job now uuid after
  | continued {ended after : Board} {next : Job} (ends : b.OwnerEnds job now [] ended)
    (scheduled : nextRepeatJob cron job now uuid = .ok (some next))
    (released : ReleasedEach (ended.put next.id next.freshCard) job.parentId.toList after)
    : Completes cron b job now uuid after

/-- The owners of a recovery end one after the other, each followed by its retention. -/
inductive OwnersEnd (now : DateTime) : Board → List Job → Board → Prop
  | nil (b : Board) : OwnersEnd now b [] b
  | cons {b middle kept after : Board} {owner : Job} {rest admitted : List Job}
    (ends : b.OwnerEnds owner now admitted middle) (pruned : middle.Pruned kept)
    (later : OwnersEnd now kept rest after)
    : OwnersEnd now b (owner :: rest) after

/-- The failures of a recovery are reported one after the other. -/
inductive FailuresReported : Board → List Job → Board → Prop
  | nil (b : Board) : FailuresReported b [] b
  | cons {b middle after : Board} {failed : Job} {rest : List Job}
    (reported : b.FailureReported failed middle) (later : FailuresReported middle rest after)
    : FailuresReported b (failed :: rest) after

/-- Only the ties of an owner count at its end. -/
theorem Candidate.of_sameTies {b : Board} {processed job : Job} {now : DateTime}
    {jobs : List Job} (ties : processed.SameTies job)
    (candidate : b.Candidate processed now jobs)
    : b.Candidate job now jobs := by
  cases candidate with
  | job own stored counted =>
      rw [ties.next]
      exact .job (ties.key ▸ own) stored (ties.nextCount _ ▸ counted)
  | flow own kept => exact .flow (ties.key ▸ own) kept

theorem OwnerEnds.of_sameTies {b after : Board} {processed job : Job} {now : DateTime}
    {admitted : List Job} (ties : processed.SameTies job)
    (ends : b.OwnerEnds processed now admitted after)
    : b.OwnerEnds job now admitted after := by
  cases ends with
  | keyless own => exact .keyless (ties.key ▸ own)
  | dropped own occupied =>
      exact .dropped (ties.key ▸ own)
        (fun jobs candidate => occupied jobs (candidate.of_sameTies ties.symm))
  | job own stored counted prepared absent =>
      exact .job (ties.key ▸ own) stored (ties.nextCount _ ▸ counted)
        (prepared.trans (ties.next _ _ _)) absent
  | flow own kept prepared absent => exact .flow (ties.key ▸ own) kept prepared absent

theorem FailureReported.of_sameTies {b after : Board} {processed job : Job}
    (ties : processed.SameTies job) (reported : b.FailureReported processed after)
    : b.FailureReported job after := by
  simp only [FailureReported, ties.parentId, ties.policy] at reported
  exact reported

theorem OwnersEnd.of_sameTies {b after : Board} {now : DateTime} {jobs : List Job}
    {process : Job → Job} (ties : ∀ job ∈ jobs, (process job).SameTies job)
    (ends : OwnersEnd now b (jobs.map process) after)
    : OwnersEnd now b jobs after := by
  induction jobs generalizing b with
  | nil =>
      cases ends
      exact .nil _
  | cons job rest ih =>
      cases ends with
      | cons ends pruned later =>
          exact .cons (ends.of_sameTies (ties job List.mem_cons_self)) pruned
            (ih (fun other member => ties other (List.mem_cons_of_mem job member)) later)

theorem FailuresReported.of_sameTies {b after : Board} {jobs : List Job}
    {process : Job → Job} (ties : ∀ job ∈ jobs, (process job).SameTies job)
    (reported : FailuresReported b (jobs.map process) after)
    : FailuresReported b jobs after := by
  induction jobs generalizing b with
  | nil =>
      cases reported
      exact .nil _
  | cons job rest ih =>
      cases reported with
      | cons first later =>
          exact .cons (first.of_sameTies (ties job List.mem_cons_self))
            (ih (fun other member => ties other (List.mem_cons_of_mem job member)) later)

/-- Reports compose, by induction on the first ones. -/
theorem FailuresReported.append {b middle after : Board} {first second : List Job}
    (head : FailuresReported b first middle) (tail : FailuresReported middle second after)
    : FailuresReported b (first ++ second) after := by
  induction head with
  | nil => exact tail
  | cons reported _ ih => exact .cons reported (ih tail)

/-- The first loop of a recovery: the leases end, and each job fails or is requeued. -/
def sweep (b : Board) (failed ready : List JobId) : Board :=
  { b with
    cards := fun id =>
      if id ∈ failed then
        (b.cards id).map (Card.moved · .failed)
      else if id ∈ ready then
        (b.cards id).map (Card.moved · .ready)
      else
        b.cards id }

@[simp] theorem sweep_next {b : Board} {failed ready : List JobId}
    : (b.sweep failed ready).next = b.next := rfl
@[simp] theorem sweep_nextFlows {b : Board} {failed ready : List JobId}
    : (b.sweep failed ready).nextFlows = b.nextFlows := rfl

@[simp] theorem sweep_nil {b : Board} : b.sweep [] [] = b := by
  simp [sweep]

theorem move_failed_sweep {b : Board} {id : JobId} {failed ready : List JobId}
    (apart : id ∉ failed) (alsoApart : id ∉ ready)
    : (b.move id .failed).sweep failed ready = b.sweep (id :: failed) ready := by
  ext1
  · funext other
    by_cases same : other = id
    · subst same
      simp [sweep, move_cards, apart, alsoApart]
    · simp [sweep, move_cards, same]
  · rfl
  · rfl

theorem move_ready_sweep {b : Board} {id : JobId} {failed ready : List JobId}
    (apart : id ∉ failed) (alsoApart : id ∉ ready)
    : (b.move id .ready).sweep failed ready = b.sweep failed (id :: ready) := by
  ext1
  · funext other
    by_cases same : other = id
    · subst same
      simp [sweep, move_cards, apart, alsoApart]
    · simp [sweep, move_cards, same]
  · rfl
  · rfl

end Board

namespace InMemoryJobQueueState

variable {s t : InMemoryJobQueueState} {owner next job : Job} {flow : JobFlow}
  {jobId parentId : JobId} {now : DateTime}

-----------------------------------------------------------------------------------------
-- What the end of an owner admits
-----------------------------------------------------------------------------------------

/-- Without an admitted job the first helper only drops the stored candidate. -/
theorem enqueueDeduplicatedNextLocked_none (s : InMemoryJobQueueState) (owner : Job)
    (now : DateTime)
    (refused : (s.enqueueDeduplicatedNextLocked owner now).2 = none)
    : (s.enqueueDeduplicatedNextLocked owner now).1.jobs = s.jobs
      ∧ (s.enqueueDeduplicatedNextLocked owner now).1.deduplicationNextFlows
        = s.deduplicationNextFlows := by
  unfold enqueueDeduplicatedNextLocked at refused ⊢
  split
  · exact ⟨rfl, rfl⟩
  · next deduplicationId own =>
      cases kept : s.deduplicationNext.lookup deduplicationId with
      | none => exact ⟨rfl, rfl⟩
      | some candidate =>
          cases counted : repeatKeepLastNextCount owner candidate with
          | none => simp [counted]
          | some repeatNextCount =>
              simp only [own, kept, counted] at refused ⊢
              split at refused
              · next occupied =>
                  rw [if_pos occupied]
                  exact ⟨rfl, rfl⟩
              · cases refused

/-- The end of an owner admits the jobs of `keptJobs` and drops what was stored for it. -/
theorem board_enqueueKeptNext (s : InMemoryJobQueueState) (owner : Job) (now : DateTime)
    : (s.enqueueKeptNext owner now).2 = !(s.keptJobs owner now).isEmpty
      ∧ (s.enqueueKeptNext owner now).1.board
        = match jobDeduplicationId owner with
          | none => s.board
          | some deduplicationId =>
              (s.keptBoard owner now).keep deduplicationId none
                (if (s.nextJobOf owner now).isSome then
                  s.board.nextFlows deduplicationId
                else
                  none) := by
  obtain ⟨sameJob, jobBoard⟩ := board_enqueueDeduplicatedNextLocked s owner now
  unfold enqueueKeptNext
  have untouched := enqueueDeduplicatedNextLocked_none s owner now
  generalize s.enqueueDeduplicatedNextLocked owner now = first at sameJob jobBoard untouched ⊢
  obtain ⟨u, admitted⟩ := first
  simp only at sameJob jobBoard untouched
  cases admitted with
  | some stored =>
      obtain ⟨next, job⟩ := Option.isSome_iff_exists.mp sameJob.symm
      refine ⟨by simp [keptJobs, job], ?_⟩
      simp only [jobBoard]
      cases own : jobDeduplicationId owner with
      | none => simp [nextJobOf, own] at job
      | some deduplicationId =>
          simp only [job, keptBoard, Option.isSome_some, if_true]
          rw [Board.keep_adopt]
          rfl
  | none =>
      obtain ⟨sameJobs, sameFlows⟩ := untouched rfl
      have refused : s.nextJobOf owner now = none := by simpa using sameJob.symm
      have sameFlow : u.nextFlowOf owner now = s.nextFlowOf owner now := by
        unfold nextFlowOf
        rw [sameJobs, sameFlows]
      obtain ⟨flowAdmitted, flowBoard⟩ := board_enqueueDeduplicatedNextFlowLocked u owner now
      simp only
      rw [flowAdmitted, flowBoard, sameFlow]
      refine ⟨?_, ?_⟩
      · cases found : s.nextFlowOf owner now <;> simp [keptJobs, refused, found]
      · rw [jobBoard]
        cases own : jobDeduplicationId owner with
        | none => rfl
        | some deduplicationId =>
            simp only [refused, keptBoard, Option.isSome_none, Bool.false_eq_true, if_false]
            cases found : s.nextFlowOf owner now with
            | none =>
                simp only
                rw [Board.keep_keep]
                simp [Board.keep]
            | some flow =>
                simp only
                rw [Board.keep_keep, Board.keep_putAll]
                simp [Board.keep]

@[simp] theorem prepareDeduplicatedNextFlow_parent_id (flow : JobFlow) (now : DateTime)
    : (prepareDeduplicatedNextFlow flow now).parent.id = flow.parent.id := by
  unfold prepareDeduplicatedNextFlow
  simp only
  split <;> rfl

/-- A candidate that is not admitted has an id of a retained job. -/
theorem occupied_of_refused (refused : s.nextJobOf owner now = none)
    (refusedFlow : s.nextFlowOf owner now = none)
    : ∀ jobs,
        s.board.Candidate owner now jobs → ∃ job ∈ jobs, ∃ card, s.board.cards job.id = some card := by
  have occupied {id : JobId} (contained : s.jobs.containsKey id = true)
      : ∃ card, s.board.cards id = some card := by
    obtain ⟨job, found⟩ := JobMap.containsKey_eq_true.mp contained
    exact ⟨_, board_cards_of_get found⟩
  intro jobs candidate
  cases candidate with
  | job own stored counted =>
      rw [board_next] at stored
      simp only [nextJobOf, own, stored, counted, Option.bind_eq_bind, Option.bind_some] at refused
      split at refused
      · next contained => exact ⟨_, List.mem_cons_self, occupied contained⟩
      · cases refused
  | flow own kept =>
      rw [board_nextFlows] at kept
      simp only [nextFlowOf, own, kept, Option.bind_eq_bind, Option.bind_some] at refusedFlow
      split at refusedFlow
      · next contained =>
          rcases Bool.or_eq_true_iff.mp contained with parent | child
          · refine ⟨_, List.mem_cons_self, occupied ?_⟩
            rw [prepareDeduplicatedNextFlow_parent_id]
            exact parent
          · obtain ⟨stored, member, contained⟩ := List.any_eq_true.mp child
            exact ⟨_, List.mem_cons_of_mem _ (List.mem_map_of_mem member), occupied contained⟩
      · cases refusedFlow

/-- The materialization of what was kept is the end of an owner on the board. -/
theorem ownerEnds_enqueueKeptNext (s : InMemoryJobQueueState) (owner : Job) (now : DateTime)
    : s.board.OwnerEnds owner now (s.keptJobs owner now) (s.enqueueKeptNext owner now).1.board := by
  rw [(board_enqueueKeptNext s owner now).2]
  unfold keptJobs keptBoard
  cases own : jobDeduplicationId owner with
  | none =>
      simp only [nextJobOf, nextFlowOf, own, Option.bind_eq_bind, Option.bind_none]
      exact .keyless own
  | some key =>
      simp only
      cases admitted : s.nextJobOf owner now with
      | some next =>
          simp only [Option.isSome_some, if_true]
          simp only [nextJobOf, own, Option.bind_eq_bind, Option.bind_some,
            Option.bind_eq_some_iff] at admitted
          obtain ⟨candidate, stored, repeatNextCount, counted, admitted⟩ := admitted
          split at admitted
          · cases admitted
          · next free =>
              obtain rfl := Option.some.inj admitted
              exact .job own stored counted rfl
                (board_cards_none.mpr (JobMap.containsKey_eq_false.mp ((Bool.not_eq_true _).mp free)))
      | none =>
          simp only [Option.isSome_none, Bool.false_eq_true, if_false]
          cases admittedFlow : s.nextFlowOf owner now with
          | none => exact .dropped own (occupied_of_refused admitted admittedFlow)
          | some flow =>
              simp only [nextFlowOf, own, Option.bind_eq_bind, Option.bind_some,
                Option.bind_eq_some_iff] at admittedFlow
              obtain ⟨stored, kept, admittedFlow⟩ := admittedFlow
              split at admittedFlow
              · cases admittedFlow
              · next free =>
                  obtain rfl := Option.some.inj admittedFlow
                  refine .flow own kept rfl ?_
                  simp only [Bool.or_eq_true, List.any_eq_true, not_or, not_exists, not_and,
                    Bool.not_eq_true] at free
                  intro job member
                  rw [board_cards_none]
                  rcases List.mem_cons.mp member with rfl | member
                  · rw [prepareDeduplicatedNextFlow_parent_id]
                    exact JobMap.containsKey_eq_false.mp free.1
                  · obtain ⟨child, inStored, rfl⟩ := List.mem_map.mp member
                    exact JobMap.containsKey_eq_false.mp (free.2 child inStored)

-----------------------------------------------------------------------------------------
-- Completion
-----------------------------------------------------------------------------------------

theorem requireCompletable_ok {lockToken : JobLockToken}
    (accepted : s.requireCompletable jobId lockToken = .ok job)
    : s.jobs.get jobId = some job ∧ job.state = .active ∧ job.lockToken = some lockToken := by
  unfold requireCompletable at accepted
  split at accepted
  · cases accepted
  · next found =>
      simp only [requireActive, requireLockToken, bind, Except.bind] at accepted
      split at accepted
      · cases accepted
      · next first =>
          split at accepted
          · cases accepted
          · next second =>
              split at accepted
              · cases accepted
              · cases accepted
                split at first
                · next active =>
                    split at second
                    · next token => exact ⟨found, active, token⟩
                    · cases second
                · cases first

/-- The job's own removal, or else the retention of its state, only drops finished jobs. -/
theorem pruned_removalOrRetention (s : InMemoryJobQueueState) {state : JobState}
    (terminal : state.isTerminal = true) (finished : ¬ s.board.Unfinished jobId)
    (immediately : Bool) (retention : Option JobRetention) (now : DateTime)
    : s.board.Pruned
        (if immediately then
          (s.removeJobRecordLocked jobId).1
        else
          match retention with
          | none => s
          | some retention => s.applyFinishedRetentionLocked state retention now).board := by
  split
  · exact pruned_removeJobRecordLocked finished
  · cases retention with
    | none => exact .refl _
    | some retention => exact pruned_applyFinishedRetentionLocked s terminal retention now

/-- A job that its own options remove is gone. -/
theorem gone_removalOrRetention (s : InMemoryJobQueueState) {state : JobState}
    {immediately : Bool} (removes : immediately = true) (retention : Option JobRetention)
    (now : DateTime)
    : (if immediately then
        (s.removeJobRecordLocked jobId).1
      else
        match retention with
        | none => s
        | some retention => s.applyFinishedRetentionLocked state retention now).board.cards jobId
      = none := by
  rw [if_pos removes, board_removeJobRecordLocked]
  exact Board.without_cards_of_mem (Set.mem_singleton jobId)

theorem gone_settleCompleted (completed : Job)
    (removes : completed.options.removesCompletedImmediately = true) (now : DateTime)
    : (s.settleCompleted completed now).board.cards completed.id = none := by
  unfold settleCompleted
  exact gone_removalOrRetention _ removes _ now

theorem gone_settleFailed {failed : Job} (removes : failed.options.removesFailedImmediately = true)
    (now : DateTime)
    : (s.settleFailed failed now).board.cards failed.id = none := by
  unfold settleFailed
  exact gone_removalOrRetention _ removes _ now

/-- The completed job is moved, and then its own removal or retention prunes the board. -/
theorem pruned_settleCompleted (found : s.jobs.get jobId = some job) (value : Value)
    (now : DateTime)
    : (s.board.move jobId .completed).Pruned
        (s.settleCompleted (completedJob job value now) now).board := by
  have sameId : job.id = jobId := JobMap.get_id found
  have moved : (s.setJob (completedJob job value now)).board = s.board.move jobId .completed :=
    board_setJob_move found rfl (fun _ => rfl)
  have pruned {u : InMemoryJobQueueState} (board : u.board = s.board.move jobId .completed)
      (immediately : Bool) (retention : Option JobRetention)
      : (s.board.move jobId .completed).Pruned
          (if immediately then
            (u.removeJobRecordLocked jobId).1
          else
            match retention with
            | none => u
            | some retention => u.applyFinishedRetentionLocked .completed retention now).board := by
    rw [← board]
    refine pruned_removalOrRetention u rfl ?_ immediately retention now
    rw [board]
    rintro ⟨card, shown, alive⟩
    rw [Board.move_cards, if_pos rfl] at shown
    obtain ⟨old, _, rfl⟩ := Option.map_eq_some_iff.mp shown
    cases alive
  have completedId : (completedJob job value now).id = jobId := sameId
  generalize completedJob job value now = completed at moved completedId ⊢
  unfold settleCompleted
  rw [completedId]
  cases completed.parentId with
  | none => exact pruned moved _ _
  | some parentId =>
      refine pruned ?_ _ _
      rw [board_of_tables (recordTerminalChildDependencyLocked_tables _ _ _), moved]

theorem releasedEach_finishCompletion (s : InMemoryJobQueueState) (completed : Job)
    (now : DateTime)
    : Board.ReleasedEach s.board completed.parentId.toList
        (s.finishCompletion completed now).board := by
  unfold finishCompletion
  simp only
  rw [board_of_tables (emitDrainedEventIfNeededLocked_tables _ _),
    board_of_tables (emitEventLocked_tables _ _ _ _ _ _)]
  cases completed.parentId with
  | none => exact .nil _
  | some parentId => exact .cons (released_releaseParentIfReadyLocked s parentId now) (.nil _)

theorem completes_completeLocked (cron : Cron) (found : s.jobs.get jobId = some job)
    (value : Value) (now : DateTime) (uuid : JobId)
    : ∃ settled,
        (s.board.move jobId .completed).Pruned settled
        ∧ (job.options.removesCompletedImmediately = true → settled.cards jobId = none)
        ∧ settled.Completes cron job now uuid
            (s.completeLocked cron job value now uuid).1.board := by
  refine ⟨_, pruned_settleCompleted found value now, ?_, ?_⟩
  · obtain rfl := JobMap.get_id found
    exact fun removes => gone_settleCompleted (completedJob job value now) removes now
  unfold completeLocked
  simp only
  generalize s.settleCompleted (completedJob job value now) now = settled
  have ties : (completedJob job value now).SameTies job := ⟨rfl, rfl, rfl, rfl, rfl⟩
  have sameNext : nextRepeatJob cron (completedJob job value now) now uuid
      = nextRepeatJob cron job now uuid := rfl
  generalize completedJob job value now = completed at ties sameNext ⊢
  rw [sameNext]
  have ends := (ownerEnds_enqueueKeptNext settled completed now).of_sameTies ties
  have flag := (board_enqueueKeptNext settled completed now).1
  generalize settled.enqueueKeptNext completed now = outcome at ends flag ⊢
  obtain ⟨u, admitted⟩ := outcome
  simp only at ends flag ⊢
  cases admitted with
  | true =>
      have some : settled.keptJobs completed now ≠ [] := by
        intro none
        rw [none] at flag
        cases flag
      exact .finished ends (.inl some) (ties.parentId ▸ releasedEach_finishCompletion u completed now)
  | false =>
      have none : settled.keptJobs completed now = [] := by
        simpa using flag
      rw [none] at ends
      simp only
      split
      · next error scheduled => exact .stopped ends scheduled
      · next scheduled =>
          exact .finished ends (.inr scheduled)
            (ties.parentId ▸ releasedEach_finishCompletion u completed now)
      · next next scheduled =>
          refine .continued ends scheduled ?_
          have released :=
            releasedEach_finishCompletion (u.insertCreated next now).1 completed now
          rw [(board_insertCreated u next now).1, ties.parentId] at released
          exact released

/-- A completion finishes the leased job, prunes the board and puts its successor. -/
theorem board_completeJob (cron : Cron) (s : InMemoryJobQueueState) (jobId : JobId)
    (lockToken : JobLockToken) (value : Value) (now : DateTime) (uuid : JobId)
    : (s.completeJob cron jobId lockToken value now uuid).1.board = s.board
      ∨ ∃ job settled,
          s.requireCompletable jobId lockToken = .ok job
          ∧ (s.board.move jobId .completed).Pruned settled
          ∧ (job.options.removesCompletedImmediately = true → settled.cards jobId = none)
          ∧ settled.Completes cron job now uuid
              (s.completeJob cron jobId lockToken value now uuid).1.board := by
  unfold completeJob
  split
  · exact .inl rfl
  · next job accepted =>
      obtain ⟨settled, facts⟩ :=
        completes_completeLocked cron (requireCompletable_ok accepted).1 value now uuid
      exact .inr ⟨job, settled, accepted, facts⟩

-----------------------------------------------------------------------------------------
-- Failure
-----------------------------------------------------------------------------------------

/-- Whether a failed attempt is the job's last one. -/
def failsTerminally (job : Job) (allowRetry : Bool) : Bool :=
  !(allowRetry && shouldRetry job)

theorem failedJob_state (job : Job) (error : String) (now : DateTime) (allowRetry : Bool)
    : (failedJob job error now allowRetry).state
      = if failsTerminally job allowRetry then .failed else .delayed := by
  unfold failedJob failsTerminally
  change Job.state (if (allowRetry && shouldRetry job) = true then _ else _) = _
  cases allowRetry && shouldRetry job <;> rfl

theorem failedJob_ties {error : String} {allowRetry : Bool}
    : (failedJob job error now allowRetry).SameTies job := by
  unfold failedJob
  simp only
  split <;> exact ⟨rfl, rfl, rfl, rfl, rfl⟩

theorem card_failedJob {error : String} {allowRetry : Bool}
    (released : Finset (String × JobId))
    : (failedJob job error now allowRetry).card released
      = (job.card released).moved
          (if failsTerminally job allowRetry then .failed else .ready) := by
  unfold failedJob failsTerminally
  change Job.card released (if (allowRetry && shouldRetry job) = true then _ else _) = _
  cases allowRetry && shouldRetry job <;> rfl

theorem pruned_settleFailed (s : InMemoryJobQueueState) (failed : Job)
    (finished : ¬ s.board.Unfinished failed.id) (now : DateTime)
    : s.board.Pruned (s.settleFailed failed now).board := by
  have pruned {u : InMemoryJobQueueState} (board : u.board = s.board) (immediately : Bool)
      (retention : Option JobRetention)
      : s.board.Pruned
          (if immediately then
            (u.removeJobRecordLocked failed.id).1
          else
            match retention with
            | none => u
            | some retention => u.applyFinishedRetentionLocked .failed retention now).board := by
    rw [← board]
    exact pruned_removalOrRetention u rfl (by rw [board]; exact finished) immediately retention now
  unfold settleFailed
  cases failed.parentId with
  | none => exact pruned rfl _ _
  | some parentId =>
      exact pruned (board_of_tables (recordTerminalChildDependencyLocked_tables _ _ _)) _ _

/-- A terminal failure prunes the board, ends the job as an owner and reports to the parent. -/
theorem settles_settleTerminalFailure (s : InMemoryJobQueueState) (failed : Job)
    (finished : ¬ s.board.Unfinished failed.id) (now : DateTime)
    : ∃ settled admitted ended,
        s.board.Pruned settled
        ∧ (failed.options.removesFailedImmediately = true → settled.cards failed.id = none)
        ∧ settled.OwnerEnds failed now admitted ended
        ∧ ended.FailureReported failed (s.settleTerminalFailure failed now).board := by
  refine ⟨_, _, _, pruned_settleFailed s failed finished now,
    fun removes => gone_settleFailed removes now, ownerEnds_enqueueKeptNext (s.settleFailed failed now) failed now, ?_⟩
  unfold settleTerminalFailure Board.FailureReported
  simp only
  cases failed.parentId with
  | none => rfl
  | some parentId => exact settled_settleParentOfFailed _ failed parentId now

/-- An accepted failure hands the job back for a retry, or fails it for good. -/
theorem board_failActiveJob_of_owned {lockToken : JobLockToken} {error : String}
    {allowRetry : Bool} (accepted : s.requireOwnedActive jobId lockToken "fail" = .ok job)
    : failsTerminally job allowRetry = false
        ∧ (s.failActiveJob jobId lockToken error now allowRetry).1.board
          = s.board.move jobId .ready
      ∨ failsTerminally job allowRetry = true
        ∧ ∃ settled admitted ended,
            (s.board.move jobId .failed).Pruned settled
            ∧ (job.options.removesFailedImmediately = true → settled.cards jobId = none)
            ∧ settled.OwnerEnds job now admitted ended
            ∧ ended.FailureReported job
                (s.failActiveJob jobId lockToken error now allowRetry).1.board := by
  have found := (requireOwnedActive_ok accepted).1
  unfold failActiveJob
  simp only [accepted]
  have ties : (failedJob job error now allowRetry).SameTies job := failedJob_ties
  have sameId : (failedJob job error now allowRetry).id = jobId :=
    ties.id.trans (JobMap.get_id found)
  have state := failedJob_state job error now allowRetry
  have moved
      : (s.setJob (failedJob job error now allowRetry)).board
        = s.board.move jobId (if failsTerminally job allowRetry then .failed else .ready) :=
    board_setJob_move found ties.id card_failedJob
  generalize failedJob job error now allowRetry = failed at ties sameId state moved ⊢
  have quiet (u : InMemoryJobQueueState)
      : (let u :=
          u.emitEventLocked (jobEventForState failed.state) (some failed) (some .active) now
            (failedReasonFields failed)
        let u :=
          if retriesExhausted failed then u.emitRetriesExhaustedEventLocked failed now else u
        if failed.state = .failed then u.emitDrainedEventIfNeededLocked now else u).board
        = u.board := by
    simp only
    split <;> split <;> exact board_of_tables (by simp)
  simp only at quiet ⊢
  rw [quiet]
  cases terminal : failsTerminally job allowRetry with
  | false =>
      simp only [terminal, Bool.false_eq_true, if_false] at state moved
      rw [if_neg (by rw [state]; decide)]
      exact .inl ⟨rfl, moved⟩
  | true =>
      simp only [terminal, if_true] at state moved
      rw [if_pos state, ← moved]
      have finished : ¬ (s.setJob failed).board.Unfinished failed.id := by
        rw [sameId, moved]
        exact not_unfinished_move_failed jobId
      obtain ⟨settled, admitted, ended, pruned, gone, owner, reported⟩ :=
        settles_settleTerminalFailure _ failed finished now
      rw [ties.options, sameId] at gone
      exact .inr ⟨rfl, settled, admitted, ended, pruned, gone, owner.of_sameTies ties,
        reported.of_sameTies ties⟩

/-- A failure is refused, or its job is owned by the caller. -/
theorem board_failActiveJob (s : InMemoryJobQueueState) (jobId : JobId)
    (lockToken : JobLockToken) (error : String) (now : DateTime) (allowRetry : Bool)
    : (s.failActiveJob jobId lockToken error now allowRetry).1.board = s.board
      ∨ ∃ job, s.requireOwnedActive jobId lockToken "fail" = .ok job := by
  cases accepted : s.requireOwnedActive jobId lockToken "fail" with
  | error refusal =>
      refine .inl ?_
      unfold failActiveJob
      simp only [accepted]
  | ok job => exact .inr ⟨job, rfl⟩

-----------------------------------------------------------------------------------------
-- Stalled recovery
-----------------------------------------------------------------------------------------

theorem stalledJob_state (job : Job) (now : DateTime)
    : (stalledJob job now).state = if stallsTerminally job then .failed else .waiting := by
  unfold stalledJob
  simp only
  split <;> rfl

theorem stalledJob_ties (job : Job) (now : DateTime) : (stalledJob job now).SameTies job := by
  unfold stalledJob
  simp only
  split <;> exact ⟨rfl, rfl, rfl, rfl, rfl⟩

/-- Drawing a new waiting sequence does not show on the card. -/
theorem card_stalledJob (job : Job) (now : DateTime) (enqueuedSeq : Nat) (released : Finset (String × JobId))
    : (stalledJob job now).card released
        = (job.card released).moved (if stallsTerminally job then .failed else .ready)
      ∧ ({ stalledJob job now with enqueuedSeq } : Job).card released
        = (stalledJob job now).card released := by
  refine ⟨?_, rfl⟩
  unfold stalledJob
  simp only
  split <;> rfl

/-- The first loop moves every stalled job, by induction on them. -/
theorem board_sweepStalled (now : DateTime) (s : InMemoryJobQueueState) {stalled : List Job}
    (retained : ∀ job ∈ stalled, s.jobs.get job.id = some job)
    (distinct : (stalled.map Job.id).Nodup)
    : (sweepStalled now s stalled).1.board
        = s.board.sweep ((stalled.filter stallsTerminally).map Job.id)
            ((stalled.filter (fun job => !stallsTerminally job)).map Job.id)
      ∧ (sweepStalled now s stalled).2.1
        = (stalled.filter stallsTerminally).map (stalledJob · now) := by
  induction stalled generalizing s with
  | nil => simp [sweepStalled]
  | cons job rest ih =>
      rw [List.map_cons, List.nodup_cons] at distinct
      have found := retained job List.mem_cons_self
      have apart (keep : Job → Bool) : job.id ∉ (rest.filter keep).map Job.id :=
        fun member => distinct.1 ((List.filter_sublist.map Job.id).subset member)
      have still {written : Job} (sameId : written.id = job.id) {t : InMemoryJobQueueState}
          (jobs : t.jobs = s.jobs)
          : ∀ other ∈ rest, (t.setJob written).jobs.get other.id = some other := by
        intro other member
        simp only [setJob, jobs]
        rw [JobMap.get_insert, if_neg]
        · exact retained other (List.mem_cons_of_mem job member)
        · intro same
          exact distinct.1 (by rw [← sameId, ← same]; exact List.mem_map_of_mem member)
      have state := stalledJob_state job now
      have sameId := (stalledJob_ties job now).id
      have card := card_stalledJob job now
      unfold sweepStalled
      simp only [found]
      cases terminal : stallsTerminally job with
      | true =>
          simp only [terminal, if_true] at state card
          simp only [List.filter_cons, terminal, Bool.not_true, Bool.false_eq_true, if_true,
            if_false, List.map_cons]
          generalize stalledJob job now = recovered at state sameId card ⊢
          rw [if_pos state]
          obtain ⟨board, failures⟩ := ih (s.setJob recovered) (still sameId rfl) distinct.2
          refine ⟨?_, by rw [failures]⟩
          rw [board, ← Board.move_failed_sweep (apart _) (apart _),
            board_setJob_move found sameId (fun released => (card 0 released).1)]
      | false =>
          simp only [terminal, Bool.false_eq_true, if_false] at state card
          simp only [List.filter_cons, terminal, Bool.not_false, Bool.false_eq_true, if_true,
            if_false, List.map_cons]
          generalize stalledJob job now = recovered at state sameId card ⊢
          rw [if_neg (by rw [state]; decide)]
          simp only
          generalize requeued_eq
            : ({ recovered with enqueuedSeq := s.nextWaitingSequence.2 } : Job) = requeued
          have requeuedId : requeued.id = job.id := by
            rw [← requeued_eq]
            exact sameId
          have requeuedCard (released : Finset (String × JobId))
              : requeued.card released = (job.card released).moved .ready := by
            rw [← requeued_eq, (card _ released).2, (card 0 released).1]
          obtain ⟨board, failures⟩ :=
            ih (s.nextWaitingSequence.1.setJob requeued) (still requeuedId rfl) distinct.2
          refine ⟨?_, failures⟩
          rw [board, ← Board.move_ready_sweep (apart _) (apart _),
            board_setJob_of_tables (nextWaitingSequence_tables s),
            board_setJob_move found requeuedId requeuedCard]

/-- The stalled jobs are the retained ones whose lease ran out. -/
theorem mem_stalledJobs
    : job ∈ s.stalledJobs now ↔ s.jobs.get job.id = some job ∧ leaseExpired now job = true := by
  unfold stalledJobs
  rw [List.mem_insertionSort, List.mem_filter, JobMap.mem_values]

theorem stalledJobs_ids_nodup (s : InMemoryJobQueueState) (now : DateTime)
    : ((s.stalledJobs now).map Job.id).Nodup := by
  unfold stalledJobs
  refine (((List.perm_insertionSort _ _).map Job.id).nodup_iff).mpr ?_
  exact (JobMap.values_ids_nodup s.jobs).sublist (List.filter_sublist.map Job.id)

/-- The jobs that a recovery fails for good, in the order of its first loop. -/
def stalledForGood (s : InMemoryJobQueueState) (now : DateTime) : List Job :=
  (s.stalledJobs now).filter stallsTerminally

/-- The jobs that a recovery requeues. -/
def requeuedIds (s : InMemoryJobQueueState) (now : DateTime) : List JobId :=
  ((s.stalledJobs now).filter (fun job => !stallsTerminally job)).map Job.id

/-- The order in which a recovery reports its failures. -/
def reportedFailures (failures : List Job) : List Job :=
  [FailurePolicy.deferParent, .continueParent, .releaseDependency, .failParent].flatMap
    (fun policy => failures.filter (fun job => failurePolicy job == policy))

theorem mem_reportedFailures {failures : List Job}
    : job ∈ reportedFailures failures ↔ job ∈ failures := by
  unfold reportedFailures
  cases policy : failurePolicy job <;> simp [policy]

/-- Reports only sort the failures, so they commute with processing the records. -/
theorem reportedFailures_map {failures : List Job} {process : Job → Job}
    (ties : ∀ job ∈ failures, (process job).SameTies job)
    : reportedFailures (failures.map process) = (reportedFailures failures).map process := by
  have filtered (policy : FailurePolicy)
      : (failures.map process).filter (fun job => failurePolicy job == policy)
        = (failures.filter (fun job => failurePolicy job == policy)).map process := by
    rw [List.filter_map]
    congr 1
    refine List.filter_congr ?_
    intro job member
    simp only [Function.comp_def, (ties job member).policy]
  unfold reportedFailures
  simp only [List.flatMap_cons, List.flatMap_nil, List.append_nil, List.map_append, filtered]

/-- A job that a recovery fails for good was retained, expired, and out of patience. -/
theorem mem_stalledForGood
    : job ∈ s.stalledForGood now
      ↔ s.jobs.get job.id = some job
        ∧ leaseExpired now job = true
        ∧ stallsTerminally job = true := by
  unfold stalledForGood
  rw [List.mem_filter, mem_stalledJobs, and_assoc]

/-- One failure of a recovery ends the job as an owner and applies its retention. -/
theorem ownerEnds_settleStalledFailure (now : DateTime) (s : InMemoryJobQueueState)
    (failed : Job)
    : ∃ admitted middle,
        s.board.OwnerEnds failed now admitted middle
        ∧ middle.Pruned (settleStalledFailure now s failed).board := by
  have ended {u : InMemoryJobQueueState} (recorded : u.board = s.board)
      (retention : Option JobRetention)
      : ∃ admitted middle,
          s.board.OwnerEnds failed now admitted middle
          ∧ middle.Pruned
              (match retention with
                | none => (u.enqueueKeptNext failed now).1
                | some retention =>
                    (u.enqueueKeptNext failed now).1.applyFinishedRetentionLocked .failed retention
                      now).board := by
    have ends := ownerEnds_enqueueKeptNext u failed now
    rw [recorded] at ends
    refine ⟨_, _, ends, ?_⟩
    cases retention with
    | none => exact .refl _
    | some retention => exact pruned_applyFinishedRetentionLocked _ rfl retention now
  unfold settleStalledFailure
  cases failed.parentId with
  | none => exact ended rfl _
  | some parentId =>
      exact ended (board_of_tables (recordTerminalChildDependencyLocked_tables _ _ _)) _

/-- The loop over the failures ends them as owners, by induction on them. -/
theorem ownersEnd_settleStalledFailures (now : DateTime) (s : InMemoryJobQueueState)
    (failures : List Job)
    : Board.OwnersEnd now s.board failures (failures.foldl (settleStalledFailure now) s).board := by
  induction failures generalizing s with
  | nil => exact .nil _
  | cons failed rest ih =>
      obtain ⟨admitted, middle, ends, pruned⟩ := ownerEnds_settleStalledFailure now s failed
      exact .cons ends pruned (ih _)

/-- The loop over failed children reports them to their parents, by induction. -/
theorem failuresReported_settleStalledParents (now : DateTime) (s : InMemoryJobQueueState)
    (failures : List Job)
    : Board.FailuresReported s.board failures
        (failures.foldl (settleStalledParent now) s).board := by
  induction failures generalizing s with
  | nil => exact .nil _
  | cons failed rest ih =>
      refine .cons ?_ (ih _)
      unfold Board.FailureReported settleStalledParent
      cases failed.parentId with
      | none => rfl
      | some parentId => exact settled_settleParentOfFailed s failed parentId now

theorem board_emitStalledEvents (now : DateTime) (s : InMemoryJobQueueState)
    (events : List Job)
    : (events.foldl (emitStalledEvents now) s).board = s.board := by
  induction events generalizing s with
  | nil => rfl
  | cons job rest ih =>
      rw [List.foldl_cons, ih]
      unfold emitStalledEvents
      simp only
      rw [board_of_tables (emitEventLocked_tables _ _ _ _ _ _),
        board_of_tables (emitEventLocked_tables _ _ _ _ _ _)]

/-- The first loop changes neither the ids of the failures nor what is removed of them. -/
theorem removedIds_stalledJob (failures : List Job) (now : DateTime)
    : ((failures.map (stalledJob · now)).filter
          (fun job => job.options.removesFailedImmediately)).map Job.id
      = (failures.filter (fun job => job.options.removesFailedImmediately)).map Job.id := by
  rw [List.filter_map, List.map_map]
  have sameFilter
      : failures.filter ((fun job => job.options.removesFailedImmediately) ∘ (stalledJob · now))
        = failures.filter (fun job => job.options.removesFailedImmediately) := by
    refine List.filter_congr ?_
    intro job _
    simp only [Function.comp_def, (stalledJob_ties job now).options]
  rw [sameFilter]
  refine List.map_congr_left ?_
  intro job _
  exact (stalledJob_ties job now).id

/-- A recovery sweeps the stalled jobs, removes those whose failure is not retained, ends
the failed ones as owners and reports them to their parents.
-/
theorem board_recoverStalledJobs (s : InMemoryJobQueueState) (now : DateTime)
    : let failures := s.stalledForGood now
      let removed := failures.filter (fun job => job.options.removesFailedImmediately)
      ∃ ended,
        Board.OwnersEnd now
            ((s.board.sweep (failures.map Job.id) (s.requeuedIds now)).without
              {id | id ∈ removed.map Job.id})
            failures ended
          ∧ Board.FailuresReported ended (reportedFailures failures)
              (s.recoverStalledJobs now).1.board := by
  intro failures removed
  have ties : ∀ job ∈ failures, (stalledJob job now).SameTies job :=
    fun job _ => stalledJob_ties job now
  unfold recoverStalledJobs
  simp only
  obtain ⟨board, swept⟩ := board_sweepStalled now s
    (fun job member => (mem_stalledJobs.mp member).1) (s.stalledJobs_ids_nodup now)
  generalize sweepStalled now s (s.stalledJobs now) = outcome at board swept ⊢
  obtain ⟨u, processed, events⟩ := outcome
  simp only at board swept ⊢
  change processed = failures.map (stalledJob · now) at swept
  change u.board = s.board.sweep (failures.map Job.id) (s.requeuedIds now) at board
  have removedIds
      : (processed.filter (fun job => job.options.removesFailedImmediately)).map Job.id
        = removed.map Job.id := by
    rw [swept]
    exact removedIds_stalledJob failures now
  rw [board_emitStalledEvents, removedIds, ← board, ← board_removeJobRecords]
  have owners := ownersEnd_settleStalledFailures now (u.removeJobRecords (removed.map Job.id))
    processed
  have reported := failuresReported_settleStalledParents now
    (processed.foldl (settleStalledFailure now) (u.removeJobRecords (removed.map Job.id)))
    (reportedFailures processed)
  have served {v : InMemoryJobQueueState}
      : (reportedFailures processed).foldl (settleStalledParent now) v
        = (processed.filter (fun job => failurePolicy job == .failParent)).foldl
            (settleStalledParent now)
            ((processed.filter (fun job => failurePolicy job == .releaseDependency)).foldl
              (settleStalledParent now)
              ((processed.filter (fun job => failurePolicy job == .continueParent)).foldl
                (settleStalledParent now)
                ((processed.filter (fun job => failurePolicy job == .deferParent)).foldl
                  (settleStalledParent now) v))) := by
    simp only [reportedFailures, List.flatMap_cons, List.flatMap_nil, List.append_nil,
      List.foldl_append]
  rw [served] at reported
  refine ⟨_, (swept ▸ owners).of_sameTies ties, ?_⟩
  have sorted : reportedFailures processed = (reportedFailures failures).map (stalledJob · now) := by
    rw [swept]
    exact reportedFailures_map ties
  rw [sorted] at reported
  rw [swept] at reported ⊢
  exact reported.of_sameTies (fun job _ => stalledJob_ties job now)

end InMemoryJobQueueState

end Lane
