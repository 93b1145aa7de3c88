import Lane.Board.Persistence

/-! The effects once more, for invariants that do not depend on when a parent is released:
everything that only moves or drops records is one kind of change, and what an operation
finishes, admits, submits or attaches are the others.
-/

namespace Lane

open InMemoryJobQueueState in
/-- The children that an operation submits: their parent's id, their records, the time. -/
def Op.flowChildren (queue : QueueName) : Op → Option (JobId × List Job × DateTime)
  | .addFlowAt parent children now =>
      let parentId := (jobOfSpec queue now parent).id
      some (parentId, flowChildJobs queue parentId children now, now)
  | .addFlowChildrenAt parentId _ children now =>
      some (parentId, flowChildJobs queue parentId children now, now)
  | _ => none

/-- The time at which an operation runs, as far as it reads a clock. A drain reads it anew for
every parent that it releases, only to stamp events and to schedule those parents.
-/
def Op.time : Op → Option DateTime
  | .addAt _ _ _ now _ => some now
  | .addManyAt _ now => some now
  | .addFlowAt _ _ now => some now
  | .addFlowChildrenAt _ _ _ now => some now
  | .removeUnprocessedChildren _ now => some now
  | .removeChildDependency _ now => some now
  | .remove _ clock => some clock
  | .removeDeduplicationKey _ clock => some clock
  | .upsertRepeat _ now => some now
  | .removeRepeat _ clock => some clock
  | .promote _ now => some now
  | .reschedule _ _ now => some now
  | .retry _ now => some now
  | .renew _ _ _ now => some now
  | .delayActive _ _ _ now => some now
  | .releaseActive _ _ now => some now
  | .setProgress _ _ clock => some clock
  | .log _ _ _ now => some now
  | .clean _ _ _ now => some now
  | .claimNext _ _ now _ => some now
  | .completeJob _ _ _ now _ => some now
  | .failJob _ _ _ now => some now
  | .failJobDiscardingRetry _ _ _ now => some now
  | .promoteDueJobs now => some now
  | .recoverStalledJobs now => some now
  | .pause clock => some clock
  | .resume clock => some clock
  | _ => none

open InMemoryJobQueueState in
/-- The records outside of flows that an operation submits. -/
def Op.submits (queue : QueueName) : Op → List Job
  | .addAt name payload options now uuid => [Job.new queue name payload options now uuid]
  | .addManyAt specs now => specs.map (jobOfSpec queue now)
  | .upsertRepeat spec now => [jobOfSpec queue now spec]
  | _ => []

namespace InMemoryJobQueueState

-----------------------------------------------------------------------------------------
-- Jobs that an operation finishes, and what enters in their place
-----------------------------------------------------------------------------------------

/-- The operation finishes the job at `now`. The flag tells whether the job's own options
then remove its record.
-/
inductive Finishes (s : InMemoryJobQueueState) : Op → DateTime → Job → Bool → Prop
  | completes {jobId : JobId} {lockToken : JobLockToken} {value : Value} {now : DateTime}
    {uuid : JobId} {job : Job} (accepted : s.requireCompletable jobId lockToken = .ok job)
    : Finishes s (.completeJob jobId lockToken value now uuid) now job
        job.options.removesCompletedImmediately
  | fails {op : Op} {jobId : JobId} {lockToken : JobLockToken} {error : String}
    {now : DateTime} {allowRetry : Bool} {job : Job}
    (ends : op.endsLease = some (jobId, lockToken))
    (reports : op.reportsFailure = some (error, now, allowRetry))
    (accepted : s.requireOwnedActive jobId lockToken "fail" = .ok job)
    (terminal : failsTerminally job allowRetry = true)
    : Finishes s op now job job.options.removesFailedImmediately
  | stalls {now : DateTime} {job : Job} (found : s.jobs.get job.id = some job)
    (expired : leaseExpired now job = true) (terminal : stallsTerminally job = true)
    : Finishes s (.recoverStalledJobs now) now job job.options.removesFailedImmediately

/-- The operation finishes the job with this id. -/
def Ends (s : InMemoryJobQueueState) (op : Op) (id : JobId) : Prop :=
  ∃ now job removes, s.Finishes op now job removes ∧ job.id = id

/-- No job that stays unfinished has one of the ids. -/
def Vacates (s : InMemoryJobQueueState) (op : Op) (jobs : List Job) : Prop :=
  ∀ job ∈ jobs, s.board.Unfinished job.id → s.Ends op job.id

/-- The job is part of a candidate that the operation may admit at `now`. -/
def MayEnter (s : InMemoryJobQueueState) (op : Op) (now : DateTime) (job : Job) : Prop :=
  ∃ owner removes jobs,
    s.Finishes op now owner removes
    ∧ s.board.Candidate owner now jobs
    ∧ s.Vacates op jobs
    ∧ job ∈ jobs

/-- The operation admits `next` as the next occurrence of the repeat job that it completes:
no candidate takes that place.
-/
def MayRepeat (cron : Cron) (s : InMemoryJobQueueState) (op : Op) (now : DateTime) (next : Job)
    : Prop :=
  ∃ jobId lockToken value uuid job,
    op = .completeJob jobId lockToken value now uuid
    ∧ s.requireCompletable jobId lockToken = .ok job
    ∧ nextRepeatJob cron job now uuid = .ok (some next)
    ∧ ∀ jobs, s.board.Candidate job now jobs → ∃ job ∈ jobs, ∃ card, s.board.cards job.id = some card

end InMemoryJobQueueState

namespace Board

/-- The finished owners have left the unfinished phases or the board, and all other
unfinished jobs are still there.
-/
structure Retires (b : Board) (owners : List Job) (removes : Job → Bool) (settled : Board)
    : Prop where
  settles : b.Settles settled
  kept : settled.next = b.next ∧ settled.nextFlows = b.nextFlows
  finished : ∀ owner ∈ owners, ¬ settled.Unfinished owner.id
  retained : ∀ {id}, b.Unfinished id → id ∉ owners.map Job.id → settled.Unfinished id
  gone : ∀ owner ∈ owners, removes owner = true → settled.cards owner.id = none

variable {b middle after settled : Board} {id : JobId} {owners : List Job} {now : DateTime}
  {removes : Job → Bool}

theorem Pruned.unfinished (pruned : b.Pruned after) (unfinished : b.Unfinished id)
    : after.Unfinished id := by
  obtain ⟨card, found, alive⟩ := unfinished
  exact ⟨card, pruned.cards_of_unfinished found alive, alive⟩

theorem Pruned.unfinished_before (pruned : b.Pruned after) (unfinished : after.Unfinished id)
    : b.Unfinished id := by
  obtain ⟨card, found, alive⟩ := unfinished
  exact ⟨card, pruned.cards_some found, alive⟩

/-- One owner that moved to a terminal phase, before a pruning. -/
theorem retires_of_move {owner : Job} {phase : Phase} (terminal : phase.isTerminal = true)
    (unfinished : b.Unfinished owner.id) (pruned : (b.move owner.id phase).Pruned settled)
    (gone : removes owner = true → settled.cards owner.id = none)
    : b.Retires [owner] removes settled where
  settles := (Settles.move phase unfinished.not_finished).trans pruned.settles
  kept := pruned.next
  finished := by
    intro other member still
    obtain rfl := List.mem_singleton.mp member
    obtain ⟨card, found, alive⟩ := pruned.unfinished_before still
    rw [move_cards, if_pos rfl] at found
    obtain ⟨old, _, rfl⟩ := Option.map_eq_some_iff.mp found
    rw [show (old.moved phase).phase = phase from rfl, terminal] at alive
    cases alive
  retained := by
    rintro id ⟨card, found, alive⟩ apart
    refine pruned.unfinished ⟨card, ?_, alive⟩
    rw [move_cards_ne (by simpa using apart), found]
  gone := by
    intro other member removed
    obtain rfl := List.mem_singleton.mp member
    exact gone removed

/-- The owners of a recovery, swept to the failed phase before their own removals. -/
theorem retires_sweep {ready : List JobId} (retained : ∀ owner ∈ owners, b.Unfinished owner.id)
    (requeued : ∀ id ∈ ready, b.Unfinished id)
    : b.Retires owners removes
        ((b.sweep (owners.map Job.id) ready).without
          {id | id ∈ (owners.filter removes).map Job.id}) := by
  have swept {id : JobId} {card : Card}
      (found : (b.sweep (owners.map Job.id) ready).cards id = some card)
      : ∃ old,
          b.cards id = some old
          ∧ (id ∈ owners.map Job.id ∧ card = old.moved .failed
            ∨ id ∉ owners.map Job.id ∧ (card = old ∨ id ∈ ready ∧ card = old.moved .ready)) := by
    simp only [sweep] at found
    split at found
    · next failed =>
        obtain ⟨old, shown, rfl⟩ := Option.map_eq_some_iff.mp found
        exact ⟨old, shown, .inl ⟨failed, rfl⟩⟩
    · next apart =>
        split at found
        · next member =>
            obtain ⟨old, shown, rfl⟩ := Option.map_eq_some_iff.mp found
            exact ⟨old, shown, .inr ⟨apart, .inr ⟨member, rfl⟩⟩⟩
        · exact ⟨card, found, .inr ⟨apart, .inl rfl⟩⟩
  refine ⟨?_, ⟨rfl, rfl⟩, ?_, ?_, ?_⟩
  · have moves : b.Settles (b.sweep (owners.map Job.id) ready) := by
      refine ⟨?_, fun stored => stored, fun stored => stored⟩
      intro id card found
      obtain ⟨old, shown, ⟨member, rfl⟩ | ⟨_, rfl | ⟨member, rfl⟩⟩⟩ := swept found
      · refine ⟨old, shown, Card.moved_sameKeys old _, fun terminal => ?_⟩
        obtain ⟨owner, isOwner, rfl⟩ := List.mem_map.mp member
        exact absurd ⟨old, shown, terminal⟩ (retained owner isOwner).not_finished
      · exact ⟨card, shown, .refl card, fun _ => rfl⟩
      · refine ⟨old, shown, Card.moved_sameKeys old _, fun terminal => ?_⟩
        exact absurd ⟨old, shown, terminal⟩ (requeued id member).not_finished
    exact moves.trans (.without _ _)
  · rintro owner member ⟨card, found, alive⟩
    obtain ⟨_, shown⟩ := without_cards_some found
    obtain ⟨old, _, ⟨_, rfl⟩ | ⟨apart, _⟩⟩ := swept shown
    · cases alive
    · exact apart (List.mem_map_of_mem member)
  · rintro id ⟨card, found, alive⟩ apart
    have kept : id ∉ (owners.filter removes).map Job.id :=
      fun member => apart ((List.filter_sublist.map Job.id).subset member)
    by_cases member : id ∈ ready
    · refine ⟨card.moved .ready, ?_, rfl⟩
      rw [without_cards_of_notMem kept]
      simp only [sweep, if_neg apart, if_pos member, found, Option.map_some]
    · refine ⟨card, ?_, alive⟩
      rw [without_cards_of_notMem kept]
      simp only [sweep, if_neg apart, if_neg member, found]
  · intro owner member removed
    exact without_cards_of_mem
      (List.mem_map_of_mem (List.mem_filter.mpr ⟨member, removed⟩))

theorem FailureReported.settles {failed : Job} (reported : b.FailureReported failed after)
    : b.Settles after := by
  unfold FailureReported at reported
  split at reported
  · exact .of_eq reported
  · exact ParentSettled.settles reported

theorem FailuresReported.settles {failures : List Job}
    (reported : FailuresReported b failures after)
    : b.Settles after := by
  induction reported with
  | nil => exact .refl _
  | cons first _ ih => exact first.settles.trans ih

theorem settles_claimed {card : Card} {lockToken : JobLockToken}
    (found : b.cards id = some card) (ready : card.phase = .ready)
    : b.Settles (b.put id { card with phase := .active, lockToken := some lockToken }) := by
  refine ⟨?_, fun stored => stored, fun stored => stored⟩
  intro other written shown
  rw [put_cards] at shown
  split at shown
  · next same =>
      obtain rfl := Option.some.inj shown
      refine ⟨card, same ▸ found, ⟨rfl, rfl, rfl, rfl, rfl, rfl⟩, fun terminal => ?_⟩
      rw [ready] at terminal
      cases terminal
  · exact ⟨written, shown, .refl written, fun _ => rfl⟩

theorem settles_empty : b.Settles .empty where
  card := by simp [empty]
  next := by simp [empty]
  nextFlows := by simp [empty]

/-- The end of an owner that admits nobody only drops candidates. -/
theorem OwnerEnds.settles {owner : Job} (ends : b.OwnerEnds owner now [] after)
    : b.Settles after where
  card := by
    rw [InMemoryJobQueueState.cards_of_ownerEnds_nil ends]
    exact fun found => ⟨_, found, .refl _, fun _ => rfl⟩
  next stored := ends.kept.1 stored
  nextFlows stored := ends.kept.2 stored

/-- No job has finished when it enters at the end of an owner. -/
theorem OwnerEnds.alive {owner : Job} {admitted : List Job}
    (ends : b.OwnerEnds owner now admitted after)
    : ∀ job ∈ admitted, job.state.phase.isTerminal = false := by
  have ready (job : Job) : (prepareDeduplicatedNextJob job now).state.phase = .ready :=
    stateAfterDependencies_phase _ _
  intro job member
  cases ends with
  | keyless => cases member
  | dropped => cases member
  | @job key candidate next repeatNextCount own stored counted prepared absent =>
      obtain rfl := List.mem_singleton.mp member
      have phase : job.state.phase = .ready := by
        rw [prepared]
        unfold nextKeepLastJob
        simp only
        split <;> exact ready candidate
      rw [phase]
      rfl
  | @flow key stored flow own kept prepared absent =>
      rcases List.mem_cons.mp member with rfl | isChild
      · have phase : flow.parent.state.phase = .ready ∨ flow.parent.state.phase = .parked := by
          rw [prepared]
          unfold prepareDeduplicatedNextFlow
          simp only
          split
          · exact .inl (ready stored.parent)
          · exact .inr rfl
        rcases phase with phase | phase <;> rw [phase] <;> rfl
      · rw [prepared] at isChild
        obtain ⟨child, _, rfl⟩ := List.mem_map.mp isChild
        rw [show _ = Phase.ready from ready child]
        rfl

end Board

namespace InMemoryJobQueueState

variable {cron : Cron} {find : Find} {queue : QueueName} {s : InMemoryJobQueueState} {op : Op}
  {now : DateTime} {b after settled : Board} {owner job : Job} {owners admitted : List Job}
  {removes : Job → Bool} {flag : Bool}

theorem Finishes.active (finishes : s.Finishes op now job flag)
    : s.jobs.get job.id = some job ∧ job.state = .active := by
  cases finishes with
  | completes accepted =>
      obtain ⟨found, active, _⟩ := requireCompletable_ok accepted
      exact ⟨JobMap.get_id found ▸ found, active⟩
  | fails _ _ accepted _ =>
      obtain ⟨found, active, _⟩ := requireOwnedActive_ok accepted
      exact ⟨JobMap.get_id found ▸ found, active⟩
  | stalls found expired _ =>
      unfold leaseExpired at expired
      simp only [Bool.and_eq_true, beq_iff_eq] at expired
      exact ⟨found, expired.1⟩

/-- The time of an operation that decides or stores by it. -/
theorem Finishes.time (finishes : s.Finishes op now job flag) : op.time = some now := by
  cases finishes with
  | completes => rfl
  | fails ends reports =>
      cases op <;> simp only [Op.reportsFailure, Option.some.injEq, Prod.mk.injEq, reduceCtorEq]
        at reports
      · exact congrArg some reports.2.1
      · exact congrArg some reports.2.1
  | stalls => rfl

theorem finishes_completeJob {jobId : JobId} {lockToken : JobLockToken} {value : Value}
    {uuid : JobId}
    : s.Finishes (.completeJob jobId lockToken value now uuid) now job flag
      ↔ s.requireCompletable jobId lockToken = .ok job
        ∧ flag = job.options.removesCompletedImmediately := by
  constructor
  · intro finishes
    cases finishes with
    | completes accepted => exact ⟨accepted, rfl⟩
    | fails _ reports => cases reports
  · rintro ⟨accepted, rfl⟩
    exact .completes accepted

theorem finishes_fails {jobId : JobId} {lockToken : JobLockToken} {error : String}
    {allowRetry : Bool} (ends : op.endsLease = some (jobId, lockToken))
    (reports : op.reportsFailure = some (error, now, allowRetry))
    : s.Finishes op now job flag
      ↔ s.requireOwnedActive jobId lockToken "fail" = .ok job
        ∧ failsTerminally job allowRetry = true
        ∧ flag = job.options.removesFailedImmediately := by
  constructor
  · intro finishes
    cases finishes with
    | completes => cases reports
    | fails otherEnds otherReports accepted terminal =>
        rw [ends] at otherEnds
        rw [reports] at otherReports
        obtain ⟨rfl, rfl⟩ := Prod.mk.inj (Option.some.inj otherEnds)
        obtain ⟨rfl, same⟩ := Prod.mk.inj (Option.some.inj otherReports)
        obtain rfl := (Prod.mk.inj same).2
        exact ⟨accepted, terminal, rfl⟩
    | stalls => cases reports
  · rintro ⟨accepted, terminal, rfl⟩
    exact .fails ends reports accepted terminal

theorem finishes_recoverStalledJobs
    : s.Finishes (.recoverStalledJobs now) now job flag
      ↔ job ∈ s.stalledForGood now ∧ flag = job.options.removesFailedImmediately := by
  constructor
  · intro finishes
    cases finishes with
    | fails _ reports => cases reports
    | stalls found expired terminal =>
        exact ⟨mem_stalledForGood.mpr ⟨found, expired, terminal⟩, rfl⟩
  · rintro ⟨member, rfl⟩
    obtain ⟨found, expired, terminal⟩ := mem_stalledForGood.mp member
    exact .stalls found expired terminal

/-- An operation that ends no lease finishes nobody. -/
theorem not_finishes (leaseless : op.endsLease = none)
    (other : ∀ now, op ≠ .recoverStalledJobs now)
    : ¬ s.Finishes op now job flag := by
  intro finishes
  cases finishes with
  | completes => cases leaseless
  | fails ends =>
      rw [leaseless] at ends
      cases ends
  | stalls => exact other now rfl

/-- A submission of children finishes nobody. -/
theorem not_finishes_of_flowChildren {parentId : JobId} {children : List Job}
    {time : DateTime} (submits : op.flowChildren queue = some (parentId, children, now))
    : ¬ s.Finishes op time job flag := by
  intro finishes
  cases finishes with
  | completes => cases submits
  | stalls => cases submits
  | fails _ reports => cases op <;> cases reports <;> cases submits

theorem Finishes.unfinished (finishes : s.Finishes op now job flag)
    : s.board.Unfinished job.id := by
  obtain ⟨found, active⟩ := finishes.active
  exact board_unfinished_of_get found (by rw [active]; rfl)

/-- A failure that is reported for good finishes just its job. -/
theorem finishes_reported {jobId : JobId} {lockToken : JobLockToken} {error : String}
    {allowRetry : Bool} (ends : op.endsLease = some (jobId, lockToken))
    (reports : op.reportsFailure = some (error, now, allowRetry))
    (accepted : s.requireOwnedActive jobId lockToken "fail" = .ok job)
    (terminal : failsTerminally job allowRetry = true) (owner : Job) (flag : Bool)
    : s.Finishes op now owner flag
      ↔ owner ∈ [job] ∧ flag = owner.options.removesFailedImmediately := by
  rw [finishes_fails ends reports, accepted, List.mem_singleton]
  constructor
  · rintro ⟨same, _, flag_eq⟩
    exact ⟨(Except.ok.inj same).symm, flag_eq⟩
  · rintro ⟨rfl, flag_eq⟩
    exact ⟨rfl, terminal, flag_eq⟩

/-- A recovery retires the jobs that it fails for good. -/
theorem retires_recoverStalledJobs (s : InMemoryJobQueueState) (now : DateTime)
    : s.board.Retires (s.stalledForGood now) (fun job => job.options.removesFailedImmediately)
        ((s.board.sweep ((s.stalledForGood now).map Job.id) (s.requeuedIds now)).without
          {id |
            id ∈ ((s.stalledForGood now).filter
              (fun job => job.options.removesFailedImmediately)).map Job.id}) := by
  refine Board.retires_sweep ?_ ?_
  · intro owner member
    obtain ⟨found, expired, terminal⟩ := mem_stalledForGood.mp member
    exact (Finishes.stalls found expired terminal).unfinished
  · intro id member
    obtain ⟨job, inFilter, rfl⟩ := List.mem_map.mp member
    obtain ⟨found, expired⟩ := mem_stalledJobs.mp (List.mem_filter.mp inFilter).1
    unfold leaseExpired at expired
    simp only [Bool.and_eq_true, beq_iff_eq] at expired
    exact board_unfinished_of_get found (by rw [expired.1]; rfl)

/-- A board between the owners' ends of one operation: candidates only go, and unfinished
jobs that the operation does not finish stay.
-/
structure Stage (s : InMemoryJobQueueState) (op : Op) (b : Board) : Prop where
  next : ∀ {key job}, b.next key = some job → s.board.next key = some job
  nextFlows : ∀ {key flow}, b.nextFlows key = some flow → s.board.nextFlows key = some flow
  persists : ∀ {id}, s.board.Unfinished id → ¬ s.Ends op id → b.Unfinished id

theorem Stage.of_retires (retires : s.board.Retires owners removes settled)
    (finishes : ∀ owner flag, s.Finishes op now owner flag ↔ owner ∈ owners ∧ flag = removes owner)
    : s.Stage op settled where
  next stored := retires.settles.next stored
  nextFlows stored := retires.settles.nextFlows stored
  persists := by
    intro id unfinished kept
    refine retires.retained unfinished ?_
    intro member
    obtain ⟨owner, isOwner, same⟩ := List.mem_map.mp member
    exact kept ⟨now, owner, removes owner, (finishes owner _).mpr ⟨isOwner, rfl⟩, same⟩

theorem Stage.pruned (stage : s.Stage op b) (pruned : b.Pruned after) : s.Stage op after where
  next stored := stage.next (pruned.settles.next stored)
  nextFlows stored := stage.nextFlows (pruned.settles.nextFlows stored)
  persists unfinished kept := pruned.unfinished (stage.persists unfinished kept)

theorem Stage.ownerEnds (stage : s.Stage op b) (ends : b.OwnerEnds owner now admitted after)
    : s.Stage op after where
  next stored := stage.next (ends.kept.1 stored)
  nextFlows stored := stage.nextFlows (ends.kept.2 stored)
  persists := by
    intro id unfinished kept
    obtain ⟨card, found, alive⟩ := stage.persists unfinished kept
    obtain ⟨_, shown, more, rfl⟩ := ends.card_after found
    exact ⟨_, shown, alive⟩

theorem flowChildren_time {parentId : JobId} {children : List Job}
    (submits : op.flowChildren queue = some (parentId, children, now))
    : op.time = some now := by
  cases op <;> simp only [Op.flowChildren, Option.some.injEq, Prod.mk.injEq, reduceCtorEq] at submits
  · exact congrArg some submits.2.2
  · exact congrArg some submits.2.2

/-- What an owner's end admits at a stage is a candidate of the state before the operation,
with ids that no job keeps.
-/
theorem Stage.mayEnter (stage : s.Stage op b) (finishes : s.Finishes op now owner flag)
    (ends : b.OwnerEnds owner now admitted after)
    : ∀ job ∈ admitted, s.MayEnter op now job := by
  have vacates (absent : ∀ job ∈ admitted, b.cards job.id = none) : s.Vacates op admitted := by
    intro job member unfinished
    by_contra kept
    obtain ⟨card, found, _⟩ := stage.persists unfinished kept
    rw [absent job member] at found
    cases found
  intro job member
  cases ends with
  | keyless => cases member
  | dropped => cases member
  | job own stored counted prepared absent =>
      subst prepared
      refine ⟨owner, flag, _, finishes, .job own (stage.next stored) counted, vacates ?_, member⟩
      simpa using absent
  | flow own kept prepared absent =>
      subst prepared
      exact ⟨owner, flag, _, finishes, .flow own (stage.nextFlows kept), vacates absent, member⟩

/-- An invariant of the board over the owners' ends of one operation, by induction on the
owners: it may assume that only candidates enter.
-/
theorem Stage.ownersEnd (inv : Board → Prop) (stage : s.Stage op b) (start : inv b)
    (finishes : ∀ owner ∈ owners, s.Finishes op now owner (removes owner))
    (settles : ∀ {b after}, inv b → b.Settles after → inv after)
    (admits
      : ∀ {b after owner admitted},
          inv b
          → b.OwnerEnds owner now admitted after
          → (∀ job ∈ admitted, s.MayEnter op now job)
          → inv after)
    (ends : Board.OwnersEnd now b owners after)
    : inv after := by
  induction ends with
  | nil => exact start
  | cons ends pruned _ ih =>
      refine ih ((stage.ownerEnds ends).pruned pruned) ?_
        (fun owner member => finishes owner (List.mem_cons_of_mem _ member))
      refine settles ?_ pruned.settles
      exact admits start ends (stage.mayEnter (finishes _ List.mem_cons_self) ends)

/-- Without a kept candidate nothing is admitted at the end of an owner. -/
theorem not_candidate_of_unkept (unkept : s.deduplicationNext.keys = [])
    (unkeptFlows : s.deduplicationNextFlows.keys = []) {jobs : List Job}
    : ¬ s.board.Candidate owner now jobs := by
  intro candidate
  cases candidate with
  | @job key _ _ own stored counted =>
      have absent : key ∉ s.deduplicationNext := by
        rw [AList.mem_keys, unkept]
        exact List.not_mem_nil
      rw [board_next, AList.lookup_eq_none.mpr absent] at stored
      cases stored
  | @flow key _ own kept =>
      have absent : key ∉ s.deduplicationNextFlows := by
        rw [AList.mem_keys, unkeptFlows]
        exact List.not_mem_nil
      rw [board_nextFlows, AList.lookup_eq_none.mpr absent] at kept
      cases kept

theorem not_mayEnter_of_unkept (unkept : s.deduplicationNext.keys = [])
    (unkeptFlows : s.deduplicationNextFlows.keys = [])
    : ¬ s.MayEnter op now job := by
  rintro ⟨_, _, _, _, candidate, _⟩
  exact not_candidate_of_unkept unkept unkeptFlows candidate

-----------------------------------------------------------------------------------------
-- The changes of one operation
-----------------------------------------------------------------------------------------

/-- The changes of one operation on the board. -/
inductive Change (cron : Cron) (find : Find) (queue : QueueName) (s : InMemoryJobQueueState)
    : Op → Board → Prop
  | settled {op : Op} {after : Board} (settles : s.board.Settles after)
    : Change cron find queue s op after
  | disowned {deduplicationId : String} {clock : DateTime} {ownerId : JobId}
    : Change cron find queue s (.removeDeduplicationKey deduplicationId clock)
        ((s.board.keep deduplicationId none none).disown ownerId)
  | detached {childId parentId : JobId} {now : DateTime} {after : Board}
    (named : s.board.Names childId parentId)
    (retained : ∃ card, s.board.cards parentId = some card)
    (settles : ((s.board.unlist parentId childId).orphan childId).Settles after)
    : Change cron find queue s (.removeChildDependency childId now) after
  | retried {jobId : JobId} {now : DateTime} {job : Job} {after : Board} (enqueuedSeq : Nat)
    (found : s.jobs.get jobId = some job) (checks : s.RetryChecks job now)
    (settles : (s.board.put jobId (retriedJob job enqueuedSeq now).freshCard).Settles after)
    : Change cron find queue s (.retry jobId now) after
  | submitted {name : String} {payload : Value} {options : JobOptions} {now : DateTime}
    {uuid : JobId} {after : Board}
    (submits : s.Submits (Job.new queue name payload options now uuid) now after)
    : Change cron find queue s (.addAt name payload options now uuid) after
  | submittedEach {specs : List (JobSpec × JobId)} {now : DateTime} {t : InMemoryJobQueueState}
    (each : SubmitsEach find now s (specs.map (jobOfSpec queue now)) t)
    : Change cron find queue s (.addManyAt specs now) t.board
  | upserted {spec : JobSpec × JobId} {now : DateTime} {replaced : Option JobId}
    (admits : s.board.Admits now replaced (jobOfSpec queue now spec))
    : Change cron find queue s (.upsertRepeat spec now)
        (s.board.enter replaced (jobOfSpec queue now spec))
  | sifted {op : Op} {parentId : JobId} {children : List Job} {now : DateTime}
    {kept : String → Option Job} {after : Board}
    (submits : op.flowChildren queue = some (parentId, children, now))
    (records : ChildRecords parentId children) (sifts : s.board.Sifts now children kept after)
    : Change cron find queue s op after
  | coalesced {parent : JobSpec × JobId} {children : List (JobSpec × JobId)} {now : DateTime}
    {parentJob : Job} {childJobs : List Job} {key : String} {ownerId : JobId} {after : Board}
    (records : FlowRecords parentJob childJobs) (own : jobDeduplicationId parentJob = some key)
    (owns : s.board.Owns now key ownerId)
    (coalesces
      : s.board.Coalesces key ownerId (fun _ => False)
          (· = { parent := parentJob, children := childJobs }) after)
    : Change cron find queue s (.addFlowAt parent children now) after
  | joined {op : Op} {parentId : JobId} {children : List Job} {now : DateTime} {p : FlowPlan}
    {old parentCard : Card} {after : Board}
    (submits : op.flowChildren queue = some (parentId, children, now))
    (retimed : p.sifted.cards parentId = some old)
    (gathers : s.board.Gathers now false parentId children old.childIds p)
    (links
      : parentCard
        = { old with
            phase := parentCard.phase, lockToken := parentCard.lockToken,
            childIds := p.childIds })
    (alive : parentCard.phase.isTerminal = old.phase.isTerminal)
    (ended : old.phase.isTerminal = true → parentCard.phase = old.phase)
    (settles : (p.filled parentId parentCard).Settles after)
    : Change cron find queue s op after
  | created {parent : JobSpec × JobId} {children : List (JobSpec × JobId)} {now : DateTime}
    {parentJob : Job} {childJobs : List Job} {p : FlowPlan} {parentCard : Card} {after : Board}
    (submits
      : (Op.addFlowAt parent children now).flowChildren queue = some (parentJob.id, childJobs, now))
    (parentJob_eq : parentJob = flowParentJob queue parent childJobs now)
    (records : FlowRecords parentJob childJobs) (absent : s.board.cards parentJob.id = none)
    (gathers : s.board.Gathers now true parentJob.id childJobs [] p)
    (unowned
      : ∀ key,
          activeDeduplicationId parentJob now = some key
          → (∀ id, ¬ s.board.Owns now key id)
            ∧ ∀ child ∈ p.inserted, activeDeduplicationId child now ≠ some key)
    (uncarried
      : ∀ key,
          parentJob.repeatKey = some key
          → (∀ id, ¬ s.board.Carries key id)
            ∧ ∀ child ∈ p.inserted, child.repeatKey ≠ some key)
    (links
      : parentCard
        = { parentJob.freshCard with phase := parentCard.phase, childIds := p.childIds })
    (alive : parentCard.phase.isTerminal = false)
    (settles : (p.filled parentJob.id parentCard).Settles after)
    : Change cron find queue s (.addFlowAt parent children now) after
  | concluded {op : Op} {owners : List Job} {now : DateTime} {settled ended after : Board}
    (removes : Job → Bool) (time : op.time = some now)
    (finishes : ∀ owner flag, s.Finishes op now owner flag ↔ owner ∈ owners ∧ flag = removes owner)
    (retires : s.board.Retires owners removes settled)
    (ends : Board.OwnersEnd now settled owners ended) (settles : ended.Settles after)
    : Change cron find queue s op after
  | continued {op : Op} {now : DateTime} {job next : Job} {removes : Job → Bool}
    {settled ended after : Board} (time : op.time = some now)
    (finishes : ∀ owner flag, s.Finishes op now owner flag ↔ owner ∈ [job] ∧ flag = removes owner)
    (repeats : s.MayRepeat cron op now next) (generated : next.id ∈ op.generatedIds)
    (succeeds : Succeeds job next next.id) (retires : s.board.Retires [job] removes settled)
    (same : ended.cards = settled.cards) (kept : settled.Settles ended)
    (settles : (ended.put next.id next.freshCard).Settles after)
    : Change cron find queue s op after

/-- One owner's end as a list of ends. -/
theorem ownersEnd_single (ends : b.OwnerEnds owner now admitted after)
    : Board.OwnersEnd now b [owner] after :=
  .cons ends (.refl after) (.nil after)

/-- The changes of a completion, with or without a next occurrence. -/
theorem change_completed {jobId : JobId} {lockToken : JobLockToken} {value : Value}
    {uuid : JobId} (accepted : s.requireCompletable jobId lockToken = .ok job)
    (pruned : (s.board.move jobId .completed).Pruned settled)
    (gone : job.options.removesCompletedImmediately = true → settled.cards jobId = none)
    (completes : settled.Completes cron job now uuid after)
    : s.Change cron find queue (.completeJob jobId lockToken value now uuid) after := by
  obtain rfl := JobMap.get_id (requireCompletable_ok accepted).1
  obtain ⟨found, active, _⟩ := requireCompletable_ok accepted
  have unfinished := board_unfinished_of_get found (by rw [active]; rfl)
  have retires
      : s.board.Retires [job] (fun job => job.options.removesCompletedImmediately) settled :=
    Board.retires_of_move rfl unfinished pruned gone
  have finishes (owner : Job) (flag : Bool)
      : s.Finishes (.completeJob job.id lockToken value now uuid) now owner flag
        ↔ owner ∈ [job] ∧ flag = owner.options.removesCompletedImmediately := by
    rw [finishes_completeJob, accepted, List.mem_singleton]
    simp [eq_comm]
  cases completes with
  | stopped ends _ => exact .concluded _ rfl finishes retires (ownersEnd_single ends) (.refl _)
  | finished ends _ released =>
      exact .concluded _ rfl finishes retires (ownersEnd_single ends) released.settles
  | @continued _ _ next ends scheduled released =>
      have succeeds := succeeds_nextRepeatJob scheduled
      have sameId := succeeds.id
      subst sameId
      refine .continued rfl finishes ?_ List.mem_cons_self succeeds retires
        (cards_of_ownerEnds_nil ends) ends.settles released.settles
      refine ⟨job.id, lockToken, value, next.id, job, rfl, accepted, scheduled, ?_⟩
      have before {id : JobId} (shown : ∃ card, settled.cards id = some card)
          : ∃ card, s.board.cards id = some card := by
        obtain ⟨card, found⟩ := shown
        obtain ⟨old, known, _⟩ := retires.settles.card found
        exact ⟨old, known⟩
      intro jobs candidate
      have still : settled.Candidate job now jobs := by
        cases candidate with
        | job own stored counted => exact .job own (by rw [retires.kept.1]; exact stored) counted
        | flow own kept => exact .flow own (by rw [retires.kept.2]; exact kept)
      cases ends with
      | keyless own =>
          cases still with
          | job known => rw [own] at known; cases known
          | flow known => rw [own] at known; cases known
      | dropped _ occupied =>
          obtain ⟨job, member, shown⟩ := occupied jobs still
          exact ⟨job, member, before shown⟩

/-- Every operation makes one of these changes, by cases on its effect. -/
theorem change_step (cron : Cron) (find : Find) (queue : QueueName)
    (s : InMemoryJobQueueState) (op : Op)
    : s.Change cron find queue op (step cron find queue s op).board := by
  have effect := effect_step cron find queue s op
  generalize (step cron find queue s op).board = after at effect ⊢
  cases effect with
  | quiet => exact .settled (.refl _)
  | claimed found ready => exact .settled (Board.settles_claimed found ready)
  | handedBack _ leased => exact .settled (.move .ready leased.unfinished.not_finished)
  | removed _ removes => exact .settled removes.settles
  | removedUnprocessed removes => exact .settled removes.settles
  | detached named retained released => exact .detached named retained released.settles
  | disowned owns => exact .disowned
  | @retried jobId now job enqueuedSeq _ found _ checks restored =>
      refine .retried enqueuedSeq found checks ?_
      rcases restored with rfl | ⟨parentId, card, _, shown, alive, _, _, rfl⟩
      · exact .refl _
      · exact .move .parked (Board.Unfinished.not_finished ⟨card, shown, alive⟩)
  | obliterated => exact .settled Board.settles_empty
  | submitted submits => exact .submitted submits
  | submittedEach each => exact .submittedEach each
  | upserted admits _ _ => exact .upserted admits
  | @flow parent children now parentJob childJobs _ childJobs_eq parentJob_eq records submits =>
      have submitted
          : (Op.addFlowAt parent children now).flowChildren queue
            = some (parentJob.id, childJobs, now) := by
        rw [childJobs_eq, parentJob_eq]
        rfl
      cases submits with
      | refused => exact .settled (.refl _)
      | sifted sifts => exact .sifted submitted records.records sifts
      | coalesced own owns coalesces => exact .coalesced records own owns coalesces
      | @joined p _ old _ found retimed gathers ends =>
          have settles := ends.settles
          generalize card_eq : ({ old with childIds := p.childIds } : Card) = card at settles
          refine .joined submitted retimed gathers ?_ ?_ (fun _ => ?_) settles
          · rw [← card_eq]
          · rw [← card_eq]
          · rw [← card_eq]
      | created absent gathers unowned uncarried ends =>
          refine .created submitted parentJob_eq records absent gathers unowned uncarried rfl ?_ ends.settles
          dsimp only
          split <;> rfl
  | @fanOut parentId lockToken children now childJobs _ childJobs_eq records fans =>
      have submitted
          : (Op.addFlowChildrenAt parentId lockToken children now).flowChildren queue
            = some (parentId, childJobs, now) := by
        rw [childJobs_eq]
        rfl
      cases fans with
      | refused => exact .settled (.refl _)
      | sifted sifts => exact .sifted submitted records sifts
      | @fannedOut p old _ leased retimed gathers ends =>
          obtain ⟨card, found, active, _⟩ := leased
          obtain ⟨_, shown, same⟩ := gathers.sifts.retimes.card_after found
          rw [retimed] at shown
          obtain rfl := Option.some.inj shown
          have phase : old.phase = .active := (congrArg Card.phase same).trans active
          have settles := ends.settles
          generalize card_eq : ({ old.moved .parked with childIds := p.childIds } : Card) = card
            at settles
          refine .joined submitted retimed gathers ?_ ?_ ?_ settles
          · rw [← card_eq]
            rfl
          · rw [← card_eq, phase]
            rfl
          · intro terminal
            rw [phase] at terminal
            cases terminal
  | completed accepted pruned gone completes =>
      exact change_completed accepted pruned gone completes
  | failed ends reports accepted terminal pruned gone owner reported =>
      obtain rfl := JobMap.get_id (requireOwnedActive_ok accepted).1
      have finishes := Finishes.fails ends reports accepted terminal
      exact .concluded _ finishes.time (finishes_reported ends reports accepted terminal)
        (Board.retires_of_move rfl finishes.unfinished pruned gone) (ownersEnd_single owner)
        reported.settles
  | @recovered now _ _ owners reported =>
      exact .concluded _ rfl (fun _ _ => finishes_recoverStalledJobs) (retires_recoverStalledJobs s now)
        owners reported.settles

end InMemoryJobQueueState

end Lane
