import Lane.Board.Candidates
import Lane.Board.Clock

/-! Candidates that are kept for the end of an owner: each stays beside an unfinished owner of its
deduplication id, as long as no operation removes, replaces or fails that owner without
finishing it.
-/

namespace Lane

namespace InMemoryJobQueueState

/-- A job or a flow is kept under the deduplication id. -/
def KeepsCandidate (s : InMemoryJobQueueState) (deduplicationId : String) : Prop :=
  deduplicationId ∈ s.deduplicationNext ∨ deduplicationId ∈ s.deduplicationNextFlows

/-- The job is retained, it has not finished, and it did not release the deduplication id. -/
def UnfinishedOwner (s : InMemoryJobQueueState) (deduplicationId : String) (id : JobId) : Prop :=
  ∃ job,
    s.jobs.get id = some job
    ∧ job.state.isTerminal = false
    ∧ jobDeduplicationId job = some deduplicationId
    ∧ deduplicationOwnerReleased s.releasedDeduplicationOwners deduplicationId id = false

/-- The operation takes the job away from its deduplication id without finishing it: it removes
the job, puts a job with another deduplication id in its place, or may fail it as a parent.
-/
inductive Loses (find : Find) (queue : QueueName) (s : InMemoryJobQueueState) (op : Op)
    (deduplicationId : String) (id : JobId)
    : Prop
  | removed (member : id ∈ s.removedIds find op)
  | replaced {spec : JobSpec × JobId} {now : DateTime} {repeatKey : String}
    (same : op = .upsertRepeat spec now)
    (series : (jobOfSpec queue now spec).repeatKey = some repeatKey)
    (carries : s.board.Carries repeatKey id)
    (other : jobDeduplicationId (jobOfSpec queue now spec) ≠ some deduplicationId)
  | failed {policy : FailurePolicy} (fails : s.MayFail find queue op id policy)

/-- Of every kept candidate the operation finishes an owner, or it leaves one unfinished. -/
def SparesCandidates (find : Find) (queue : QueueName) (s : InMemoryJobQueueState) (op : Op)
    : Prop :=
  ∀ deduplicationId,
    s.KeepsCandidate deduplicationId
    → (∃ now owner removes,
        s.Finishes op now owner removes ∧ jobDeduplicationId owner = some deduplicationId)
      ∨ ∃ id,
          s.UnfinishedOwner deduplicationId id ∧ ¬ s.Loses find queue op deduplicationId id

variable {cron : Cron} {find : Find} {queue : QueueName} {s : InMemoryJobQueueState} {op : Op}
  {after : Board} {job : Job} {now : DateTime} {key : String} {id : JobId}

theorem keepsCandidate_iff : s.KeepsCandidate key ↔ s.board.Keeps key := by
  unfold KeepsCandidate Board.Keeps
  rw [board_next, board_nextFlows, ← Option.isSome_iff_exists, ← Option.isSome_iff_exists,
    AList.lookup_isSome, AList.lookup_isSome]

theorem unfinishedOwner_iff : s.UnfinishedOwner key id ↔ s.board.Anchors key id := by
  constructor
  · rintro ⟨job, found, alive, own, unreleased⟩
    refine ⟨_, board_cards_of_get found, by simpa [Job.card] using alive, ?_⟩
    simp [Job.card, own, JobMap.get_id found, unreleased, Option.filter]
  · rintro ⟨card, shown, alive, owner⟩
    obtain ⟨job, found, rfl⟩ := board_cards_some shown
    simp only [Job.card, Option.filter_eq_some_iff, Bool.not_eq_true'] at owner
    rw [JobMap.get_id found] at owner
    exact ⟨job, found, by simpa [Job.card] using alive, owner.1, owner.2⟩

-----------------------------------------------------------------------------------------
-- Owners that an operation spares
-----------------------------------------------------------------------------------------

/-- Without a finished owner the operation leaves an unfinished one. -/
theorem SparesCandidates.anchors (spares : s.SparesCandidates find queue op)
    (keeps : s.board.Keeps key)
    (unended
      : ∀ now owner removes,
          s.Finishes op now owner removes → jobDeduplicationId owner ≠ some key)
    : ∃ id, s.board.Anchors key id ∧ ¬ s.Loses find queue op key id ∧ ¬ s.Ends op id := by
  rcases spares key (keepsCandidate_iff.mpr keeps) with ⟨now, owner, removes, finishes, own⟩
    | ⟨id, owner, unlost⟩
  · exact absurd own (unended now owner removes finishes)
  · refine ⟨id, unfinishedOwner_iff.mp owner, unlost, ?_⟩
    rintro ⟨now, job, removes, finishes, rfl⟩
    obtain ⟨stored, found, _, own, _⟩ := owner
    rw [finishes.active.1] at found
    obtain rfl := Option.some.inj found
    exact unended now job removes finishes own

/-- The course of an operation leaves the owners that it spares. -/
theorem anchored_of_standing (standing : s.Standing find queue op after)
    (spares : s.SparesCandidates find queue op)
    (keeps : ∀ key, after.Keeps key → s.board.Keeps key)
    (unended
      : ∀ key,
          after.Keeps key
          → ∀ now owner removes,
              s.Finishes op now owner removes → jobDeduplicationId owner ≠ some key)
    : after.Anchored := by
  intro key stored
  obtain ⟨id, anchors, unlost, alive⟩ := spares.anchors (keeps key stored) (unended key stored)
  rcases standing.stays anchors alive (fun member => unlost (.removed member)) with
    stays | ⟨policy, fails⟩
  · exact ⟨id, stays⟩
  · exact absurd (.failed fails) unlost

/-- The course of an operation that ends no lease and brings in no candidate. -/
theorem anchored_of_settles (standing : s.Standing find queue op after)
    (spares : s.SparesCandidates find queue op) (leaseless : op.endsLease = none)
    (other : ∀ now, op ≠ .recoverStalledJobs now) (settles : s.board.Settles after)
    : after.Anchored :=
  anchored_of_standing standing spares
    (fun _ => Board.keeps_of_subset settles.next settles.nextFlows)
    (fun _ _ _ _ _ finishes => absurd finishes (not_finishes leaseless other))

/-- Jobs are removed, and parents are checked for their release. -/
theorem anchored_removes {parentIds : List JobId} (spares : s.SparesCandidates find queue op)
    (leaseless : op.endsLease = none) (other : ∀ now, op ≠ .recoverStalledJobs now)
    (checks : ∀ parentId ∈ parentIds, s.ChecksRelease find queue op parentId)
    (removes : s.board.Removes (s.removedIds find op) parentIds after)
    : after.Anchored := by
  refine anchored_of_settles ?_ spares leaseless other removes.settles
  exact Standing.releasedEach (standing_start.without (fun id member _ => .inl member)) checks
    removes.released

/-- A removal informs the parents that the removed jobs name. -/
theorem anchored_informs {parentIds : List JobId} (spares : s.SparesCandidates find queue op)
    (leaseless : op.endsLease = none) (other : ∀ now, op ≠ .recoverStalledJobs now)
    (informs : s.board.InformsParents (s.removedIds find op) parentIds)
    (removes : s.board.Removes (s.removedIds find op) parentIds after)
    : after.Anchored := by
  refine anchored_removes spares leaseless other ?_ removes
  intro parentId member
  obtain ⟨childId, removed, names⟩ := (informs parentId).mp member
  exact .removed removed names

-----------------------------------------------------------------------------------------
-- Submitted flows
-----------------------------------------------------------------------------------------

/-- A filled plan, whose parent is not released while a new child is kept. -/
theorem anchored_ends {parentId : JobId} {children : List Job} {existingIds : List JobId}
    {submitted : Bool} {p : FlowPlan} {parentCard : Card} (anchored : s.board.Anchored)
    (spares : s.SparesCandidates find queue op)
    (submits : op.flowChildren queue = some (parentId, children, now))
    (gathers : s.board.Gathers now submitted parentId children existingIds p)
    (standing : s.Standing find queue op (p.filled parentId parentCard))
    (stays
      : ∀ {key},
          s.board.Anchors key parentId → (p.filled parentId parentCard).Anchors key parentId)
    (ends : p.Ends parentId (p.filled parentId parentCard) after)
    : after.Anchored := by
  have keeps : s.board.KeepsBeside after :=
    fun key stored => gathers.sifts.keepsBeside key (ends.keeps stored)
  rcases ends with ⟨_, rfl⟩ | ⟨unkept, released⟩
  · refine anchored.keepsBeside keeps ?_
    intro key id anchors
    by_cases same : id = parentId
    · exact same ▸ stays (same ▸ anchors)
    · exact gathers.anchors anchors same
  · refine anchored_of_standing (standing.released (.submitted submits) released) spares ?_ ?_
    · intro key stored
      have sifted := FlowPlan.Ends.keeps (.inr ⟨unkept, released⟩) stored
      unfold Board.Keeps at sifted ⊢
      rw [gathers.sifts.next key, gathers.sifts.nextFlows key, unkept key] at sifted
      exact sifted
    · exact fun _ _ _ _ _ finishes => absurd finishes (not_finishes_of_flowChildren submits)

/-- A deduplication loop that ends with a rejected child. -/
theorem anchored_sifted {children : List Job} {kept : String → Option Job}
    (anchored : s.board.Anchored) (sifts : s.board.Sifts now children kept after)
    : after.Anchored :=
  anchored.keepsBeside sifts.keepsBeside (fun _ _ => sifts.retimes.anchors)

/-- A flow submission, by cases on its outcome. -/
theorem anchored_flowSubmits {parent : Job} {children : List Job} (anchored : s.board.Anchored)
    (spares : s.SparesCandidates find queue op)
    (submitted : op.flowChildren queue = some (parent.id, children, now))
    (submits : s.FlowSubmits parent children now after) (keeps : s.board.KeepsBeside after)
    : after.Anchored := by
  have start : s.Standing find queue op s.board := standing_start
  cases submits with
  | refused => exact anchored
  | sifted sifts => exact anchored_sifted anchored sifts
  | coalesced _ _ coalesces =>
      exact anchored.keepsBeside keeps (fun _ _ => coalesces.retimes.anchors)
  | @joined p retained old _ found retimed gathers ends =>
      have sifted := start.retimes gathers.sifts.retimes
      have stays {key : String} (anchors : s.board.Anchors key parent.id)
          : (p.filled parent.id { old with childIds := p.childIds }).Anchors key parent.id := by
        obtain ⟨card, shown, alive, own⟩ := gathers.sifts.retimes.anchors anchors
        rw [retimed] at shown
        obtain rfl := Option.some.inj shown
        exact ⟨_, gathers.parent_card, alive, own⟩
      refine anchored_ends anchored spares submitted gathers ?_ stays ends
      refine sifted.filled submitted gathers rfl (fun _ => sifted.lists retimed) ?_ stays
      intro failed
      have mayFail := sifted.failed retimed failed
      exact mayFail
  | @created p _ absent gathers _ _ ends =>
      have stays {key : String} {card : Card} (anchors : s.board.Anchors key parent.id)
          : (p.filled parent.id card).Anchors key parent.id := by
        obtain ⟨_, shown, _⟩ := anchors
        rw [absent] at shown
        cases shown
      refine anchored_ends anchored spares submitted gathers ?_ stays ends
      refine (start.retimes gathers.sifts.retimes).filled submitted gathers rfl nofun ?_ stays
      intro failed
      dsimp only at failed
      split at failed <;> cases failed

/-- A dynamic fan-out likewise. -/
theorem anchored_fansOut {parentId : JobId} {lockToken : JobLockToken} {children : List Job}
    (anchored : s.board.Anchored) (spares : s.SparesCandidates find queue op)
    (submitted : op.flowChildren queue = some (parentId, children, now))
    (fans : s.FansOut parentId lockToken children now after)
    : after.Anchored := by
  have start : s.Standing find queue op s.board := standing_start
  cases fans with
  | refused => exact anchored
  | sifted sifts => exact anchored_sifted anchored sifts
  | @fannedOut p old _ leased retimed gathers ends =>
      have sifted := start.retimes gathers.sifts.retimes
      have stays {key : String} (anchors : s.board.Anchors key parentId)
          : (p.filled parentId { old.moved .parked with childIds := p.childIds }).Anchors key
              parentId := by
        obtain ⟨card, shown, _, own⟩ := gathers.sifts.retimes.anchors anchors
        rw [retimed] at shown
        obtain rfl := Option.some.inj shown
        exact ⟨_, gathers.parent_card, rfl, own⟩
      refine anchored_ends anchored spares submitted gathers ?_ stays ends
      exact sifted.filled submitted gathers rfl (fun _ => sifted.lists retimed) nofun stays

-----------------------------------------------------------------------------------------
-- Finished owners
-----------------------------------------------------------------------------------------

/-- What an operation keeps once its owners have ended is kept for none of them. -/
theorem unended_of_ownersEnd {owners : List Job} {removes : Job → Bool} {settled ended : Board}
    (exclusive : s.board.Exclusive) (time : op.time = some now)
    (finishes
      : ∀ owner flag, s.Finishes op now owner flag ↔ owner ∈ owners ∧ flag = removes owner)
    (retires : s.board.Retires owners removes settled)
    (ends : Board.OwnersEnd now settled owners ended) (keeps : ended.Keeps key)
    : ∀ now owner flag, s.Finishes op now owner flag → jobDeduplicationId owner ≠ some key := by
  intro other owner flag finished own
  obtain rfl := Option.some.inj (finished.time.symm.trans time)
  have member := ((finishes owner flag).mp finished).1
  exact ends.consumes (exclusive.settles retires.settles) member own keeps

/-- The owners of an operation end, and then nothing more is kept. -/
theorem anchored_concluded {owners : List Job} {removes : Job → Bool} {settled ended : Board}
    (spares : s.SparesCandidates find queue op) (exclusive : s.board.Exclusive)
    (time : op.time = some now)
    (finishes
      : ∀ owner flag, s.Finishes op now owner flag ↔ owner ∈ owners ∧ flag = removes owner)
    (retires : s.board.Retires owners removes settled)
    (ends : Board.OwnersEnd now settled owners ended)
    (standing : s.Standing find queue op after) (keeps : ∀ key, after.Keeps key → ended.Keeps key)
    : after.Anchored := by
  refine anchored_of_standing standing spares ?_ ?_
  · intro key stored
    have settledKeeps := Board.keeps_of_subset ends.kept.1 ends.kept.2 (keeps key stored)
    exact Board.keeps_of_subset retires.settles.next retires.settles.nextFlows settledKeeps
  · intro key stored
    exact unended_of_ownersEnd exclusive time finishes retires ends (keeps key stored)

/-- The standing of the board once the owners of an operation have ended. -/
theorem standing_ownersEnd {owners : List Job} {removes : Job → Bool} {settled ended : Board}
    (finishes
      : ∀ owner flag, s.Finishes op now owner flag ↔ owner ∈ owners ∧ flag = removes owner)
    (retires : s.board.Retires owners removes settled)
    (standing : s.Standing find queue op settled)
    (ends : Board.OwnersEnd now settled owners ended)
    : s.Standing find queue op ended :=
  Standing.ownersEnd (.of_retires retires finishes) standing
    (fun owner member => ⟨removes owner, (finishes owner _).mpr ⟨member, rfl⟩⟩) ends

/-- A completion: the job's successor enters, and its parent's release is checked. -/
theorem anchored_completed {jobId : JobId} {lockToken : JobLockToken} {value : Value}
    {uuid : JobId} {settled : Board}
    (fresh : FreshIds s (.completeJob jobId lockToken value now uuid))
    (spares : s.SparesCandidates find queue (.completeJob jobId lockToken value now uuid))
    (exclusive : s.board.Exclusive) (accepted : s.requireCompletable jobId lockToken = .ok job)
    (pruned : (s.board.move jobId .completed).Pruned settled)
    (gone : job.options.removesCompletedImmediately = true → settled.cards jobId = none)
    (completes : settled.Completes cron job now uuid after)
    : after.Anchored := by
  obtain rfl := JobMap.get_id (requireCompletable_ok accepted).1
  have finished
      : s.Finishes (.completeJob job.id lockToken value now uuid) now job
          job.options.removesCompletedImmediately :=
    .completes accepted
  have finishes (owner : Job) (flag : Bool)
      : s.Finishes (.completeJob job.id lockToken value now uuid) now owner flag
        ↔ owner ∈ [job] ∧ flag = owner.options.removesCompletedImmediately := by
    rw [finishes_completeJob, accepted, List.mem_singleton]
    simp [eq_comm]
  have retires
      : s.board.Retires [job] (fun job => job.options.removesCompletedImmediately) settled :=
    Board.retires_of_move rfl finished.unfinished pruned gone
  have start : s.Standing find queue (.completeJob job.id lockToken value now uuid) s.board :=
    standing_start
  have standing := (start.move (fun _ _ => .completed ⟨now, job, _, finished, rfl⟩)).pruned pruned
  have checks
      : ∀ parentId ∈ job.parentId.toList,
          s.ChecksRelease find queue (.completeJob job.id lockToken value now uuid) parentId :=
    fun parentId member => .finished finished (Option.mem_toList.mp member)
  cases completes with
  | stopped ends =>
      have ended := ownersEnd_single ends
      exact anchored_concluded spares exclusive rfl finishes retires ended
        (standing_ownersEnd finishes retires standing ended) (fun _ keeps => keeps)
  | finished ends _ released =>
      have ended := ownersEnd_single ends
      have stood := standing_ownersEnd finishes retires standing ended
      exact anchored_concluded spares exclusive rfl finishes retires ended
        (stood.releasedEach checks released)
        (fun _ => Board.keeps_of_subset released.settles.next released.settles.nextFlows)
  | @continued _ _ next ends scheduled released =>
      have ended := ownersEnd_single ends
      have stood := standing_ownersEnd finishes retires standing ended
      have succeeds := succeeds_nextRepeatJob scheduled
      have generated
          : next.id ∈ (Op.completeJob job.id lockToken value now uuid).generatedIds := by
        rw [succeeds.id]
        exact List.mem_cons_self
      have entered :=
        stood.next generated (absent_of_fresh fresh generated) succeeds.submitted.ready
          succeeds.submitted.childless
      exact anchored_concluded spares exclusive rfl finishes retires ended
        (entered.releasedEach checks released)
        (fun _ => Board.keeps_of_subset released.settles.next released.settles.nextFlows)

/-- A failure for good, or a report that hands the job back. -/
theorem anchored_failActiveJob {jobId : JobId} {lockToken : JobLockToken} {error : String}
    {allowRetry : Bool} (ends : op.endsLease = some (jobId, lockToken))
    (reports : op.reportsFailure = some (error, now, allowRetry))
    (spares : s.SparesCandidates find queue op) (exclusive : s.board.Exclusive)
    (anchored : s.board.Anchored)
    : (s.failActiveJob jobId lockToken error now allowRetry).1.board.Anchored := by
  rcases board_failActiveJob s jobId lockToken error now allowRetry with same | ⟨job, accepted⟩
  · rw [same]
    exact anchored
  · rcases board_failActiveJob_of_owned accepted with
      ⟨_, board⟩ | ⟨terminal, settled, admitted, ended, pruned, gone, owner, reported⟩
    · rw [board]
      exact anchored.ready
    · obtain ⟨found, active, token⟩ := requireOwnedActive_ok accepted
      obtain rfl := JobMap.get_id found
      have finished := Finishes.fails ends reports accepted terminal
      have fails : s.FailsForGood op job :=
        ⟨found, .inl ⟨lockToken, error, now, allowRetry, ends, reports, active, token, terminal⟩⟩
      have finishes := finishes_reported ends reports accepted terminal
      have retires
          : s.board.Retires [job] (fun job => job.options.removesFailedImmediately) settled :=
        Board.retires_of_move rfl finished.unfinished pruned gone
      have start : s.Standing find queue op s.board := standing_start
      have standing : s.Standing find queue op settled := by
        refine (start.move ?_).pruned pruned
        intro card shown
        rw [board_cards_of_get found] at shown
        obtain rfl := Option.some.inj shown
        exact .failed (.ended fails)
      have ended := ownersEnd_single owner
      have stood := standing_ownersEnd finishes retires standing ended
      exact anchored_concluded spares exclusive finished.time finishes retires ended
        (stood.failureReported fails reported)
        (fun _ => Board.keeps_of_subset reported.settles.next reported.settles.nextFlows)

/-- A stalled recovery: the jobs that stalled too often are failed for good. -/
theorem anchored_recoverStalledJobs
    (spares : s.SparesCandidates find queue (.recoverStalledJobs now))
    (exclusive : s.board.Exclusive)
    : (s.recoverStalledJobs now).1.board.Anchored := by
  obtain ⟨ended, owners, reported⟩ := board_recoverStalledJobs s now
  have retires := retires_recoverStalledJobs s now
  have finishes (owner : Job) (flag : Bool)
      : s.Finishes (.recoverStalledJobs now) now owner flag
        ↔ owner ∈ s.stalledForGood now ∧ flag = owner.options.removesFailedImmediately :=
    finishes_recoverStalledJobs
  have start : s.Standing find queue (.recoverStalledJobs now) s.board := standing_start
  have fails : ∀ id ∈ (s.stalledForGood now).map Job.id, ∀ card, s.board.cards id = some card
      → s.MayFail find queue (.recoverStalledJobs now) id card.policy := by
    intro id member card shown
    obtain ⟨job, stalled, rfl⟩ := List.mem_map.mp member
    have failsForGood := failsForGood_recoverStalledJobs.mpr stalled
    rw [board_cards_of_get failsForGood.1] at shown
    obtain rfl := Option.some.inj shown
    exact .ended failsForGood
  have removed : ∀ id ∈ ((s.stalledForGood now).filter
      (fun job => job.options.removesFailedImmediately)).map Job.id,
      s.Ends (.recoverStalledJobs now) id := by
    intro id member
    obtain ⟨job, inFilter, rfl⟩ := List.mem_map.mp member
    have stalled := (List.mem_filter.mp inFilter).1
    exact ⟨now, job, _, finishes_recoverStalledJobs.mpr ⟨stalled, rfl⟩, rfl⟩
  have swept : s.Standing find queue (.recoverStalledJobs now)
      (s.board.sweep ((s.stalledForGood now).map Job.id) (s.requeuedIds now)) :=
    start.sweep fails
  have settled := swept.without (fun id member _ => .inr (removed id member))
  have stood := standing_ownersEnd finishes retires settled owners
  refine anchored_concluded spares exclusive rfl finishes retires owners
    (stood.failuresReported ?_ reported)
    (fun _ => Board.keeps_of_subset reported.settles.next reported.settles.nextFlows)
  intro failed member
  exact failsForGood_recoverStalledJobs.mpr (mem_reportedFailures.mp member)

-----------------------------------------------------------------------------------------
-- One operation
-----------------------------------------------------------------------------------------

/-- An upsert that replaces an owner gives its deduplication id to the new job, or leaves another
owner.
-/
theorem anchored_upsertRepeat {spec : JobSpec × JobId}
    (spares : s.SparesCandidates find queue (.upsertRepeat spec now))
    (anchored : s.board.Anchored)
    : (s.upsertRepeat cron find queue spec now).1.board.Anchored := by
  rcases board_upsertRepeat cron find queue s spec now with
    same | ⟨replaced, repeatKey, admits, series, carries, board⟩
  · rw [same]
    exact anchored
  · rw [board]
    refine anchored.enter admits.absent admits.ready ?_
    intro key id isReplaced keeps _
    obtain ⟨other, anchors, unlost, _⟩ :=
      spares.anchors keeps (fun _ _ _ finishes => absurd finishes (not_finishes rfl nofun))
    by_cases same : other = id
    · refine .inl ?_
      by_contra different
      exact unlost (.replaced rfl series (carries other (by rw [isReplaced, same])) different)
    · exact .inr ⟨other, same, anchors⟩

/-- A retried job owns its deduplication id again, and the others are as they were. -/
theorem anchored_retry {jobId : JobId} (anchored : s.board.Anchored)
    : (s.retry find jobId now).1.board.Anchored := by
  rcases board_retry find s jobId now with
    same | ⟨job, enqueuedSeq, found, terminal, _, restored⟩
  · rw [same]
    exact anchored
  · have entered : (s.board.put jobId (retriedJob job enqueuedSeq now).freshCard).Anchored := by
      refine anchored.put ?_
      intro old shown alive
      rw [board_cards_of_get found] at shown
      obtain rfl := Option.some.inj shown
      simp [Job.card, terminal] at alive
    rcases restored with board | ⟨parentId, card, _, shown, _, _, _, board⟩
    · rw [board]
      exact entered
    · rw [board, Board.move_eq_put shown]
      refine entered.put ?_
      intro old known _
      rw [shown] at known
      obtain rfl := Option.some.inj known
      exact ⟨rfl, rfl⟩

/-- A released key keeps nothing, and its owner owned no other one. -/
theorem anchored_removeDeduplicationKey {deduplicationId : String} {clock : DateTime}
    (anchored : s.board.Anchored)
    : (s.removeDeduplicationKey find deduplicationId clock).1.board.Anchored := by
  rcases board_removeDeduplicationKey find s deduplicationId clock with
    same | ⟨ownerId, owns, board⟩
  · rw [same]
    exact anchored
  · rw [board]
    intro key stored
    have different : key ≠ deduplicationId := by
      rintro rfl
      refine Board.not_keeps ?_ ?_ stored
      · simp [Board.disown, Board.keep]
      · simp [Board.disown, Board.keep]
    have before : s.board.Keeps key := by
      unfold Board.Keeps at stored ⊢
      simpa [Board.disown, Board.keep, different] using stored
    obtain ⟨id, anchors⟩ := anchored key before
    have apart : id ≠ ownerId := by
      rintro rfl
      exact different (anchors.key_eq owns)
    obtain ⟨card, found, rest⟩ := anchors
    refine ⟨id, card, ?_, rest⟩
    rw [Board.disown_cards, if_neg apart]
    exact found

/-- A detached child may leave a parent that is released. -/
theorem anchored_removeChildDependency {childId : JobId}
    (spares : s.SparesCandidates find queue (.removeChildDependency childId now))
    (anchored : s.board.Anchored)
    : (s.removeChildDependency childId now).1.board.Anchored := by
  rcases board_removeChildDependency s childId now with same | ⟨parentId, named, _, released⟩
  · rw [same]
    exact anchored
  · have start : s.Standing find queue (.removeChildDependency childId now) s.board :=
      standing_start
    refine anchored_of_standing (start.detached.released (.detached rfl named) released) spares ?_ ?_
    · exact fun _ => Board.keeps_of_subset released.settles.next released.settles.nextFlows
    · exact fun _ _ _ _ _ finishes => absurd finishes (not_finishes rfl nofun)

/-- Every candidate keeps an unfinished owner over an operation that spares the candidates, by cases
on the operation.
-/
theorem anchored_step (cron : Cron) (find : Find) (queue : QueueName)
    (fresh : FreshIds s op) (spares : s.SparesCandidates find queue op)
    (exclusive : s.board.Exclusive) (anchored : s.board.Anchored)
    : (step cron find queue s op).board.Anchored := by
  have quiet {after : Board} (same : after = s.board) : after.Anchored := same ▸ anchored
  cases op with
  | addAt name payload options now uuid =>
      exact anchored_addAt cron queue name payload options uuid anchored
  | addManyAt specs now => exact anchored_addManyAt cron queue specs anchored
  | addFlowAt parent children now =>
      rcases flowSubmits_addFlowAt cron find queue s parent children now with
        same | ⟨_, submits, keeps⟩
      · exact quiet same
      · have submitted
            : (Op.addFlowAt parent children now).flowChildren queue
              = some
                  ((flowParentJob queue parent
                      (flowChildJobs queue (jobOfSpec queue now parent).id children now) now).id,
                    flowChildJobs queue (jobOfSpec queue now parent).id children now, now) :=
          rfl
        exact anchored_flowSubmits anchored spares submitted submits keeps
  | addFlowChildrenAt parentId lockToken children now =>
      rcases fansOut_addFlowChildrenAt cron find queue s parentId lockToken children now with
        same | ⟨_, fans⟩
      · exact quiet same
      · exact anchored_fansOut anchored spares rfl fans
  | removeUnprocessedChildren parentId now =>
      refine anchored_removes spares rfl nofun ?_ (removes_removeUnprocessedChildren s parentId now)
      intro other member
      obtain rfl := List.mem_singleton.mp member
      exact .emptied rfl
  | removeChildDependency childId now => exact anchored_removeChildDependency spares anchored
  | remove jobId clock =>
      obtain ⟨parentIds, informs, removes⟩ := removes_remove s jobId clock
      exact anchored_informs spares rfl nofun informs removes
  | removeDeduplicationKey deduplicationId clock =>
      exact anchored_removeDeduplicationKey anchored
  | upsertRepeat spec now => exact anchored_upsertRepeat spares anchored
  | removeRepeat repeatKey clock =>
      obtain ⟨parentIds, informs, removes⟩ := removes_removeRepeat find s repeatKey clock
      exact anchored_informs spares rfl nofun informs removes
  | promote jobId now => exact quiet (board_promote s jobId now)
  | reschedule jobId delay now => exact quiet (board_reschedule s jobId delay now)
  | retry jobId now => exact anchored_retry anchored
  | renew jobId lockToken leaseFor now => exact quiet (board_renew s jobId lockToken leaseFor now)
  | delayActive jobId lockToken delay now =>
      rcases board_delayActive s jobId lockToken delay now with same | ⟨_, board⟩
      · exact quiet same
      · exact board ▸ anchored.ready
  | releaseActive jobId lockToken now =>
      rcases board_releaseActive s jobId lockToken now with same | ⟨_, board⟩
      · exact quiet same
      · exact board ▸ anchored.ready
  | setPriorityOrder jobId priority lifo => exact quiet (board_setPriorityOrder s jobId priority lifo)
  | setData jobId payload => exact quiet (board_setData s jobId payload)
  | setProgress jobId progress clock => exact quiet (board_setProgress s jobId progress clock)
  | saveStacktrace jobId stacktrace failedReason =>
      exact quiet (board_saveStacktrace s jobId stacktrace failedReason)
  | log jobId line keep now => exact quiet (board_log s jobId line keep now)
  | clearLogs jobId keep => exact quiet (board_clearLogs s jobId keep)
  | clean state grace limit now =>
      obtain ⟨parentIds, informs, removes⟩ := removes_clean s state grace limit now
      exact anchored_informs spares rfl nofun informs removes
  | drain includeDelayed clock =>
      obtain ⟨parentIds, informs, removes⟩ := removes_drain find s includeDelayed clock
      exact anchored_informs spares rfl nofun informs removes
  | obliterate force =>
      rcases board_obliterate s force with same | ⟨_, board⟩
      · exact quiet same
      · exact board ▸ Board.anchored_empty
  | claimNext workerId leaseFor now lockToken =>
      rcases board_claimNext s workerId leaseFor now lockToken with
        same | ⟨id, card, found, ready, board⟩
      · exact quiet same
      · refine board ▸ anchored.put ?_
        intro old shown _
        rw [found] at shown
        obtain rfl := Option.some.inj shown
        exact ⟨rfl, rfl⟩
  | completeJob jobId lockToken value now uuid =>
      rcases board_completeJob cron s jobId lockToken value now uuid with
        same | ⟨job, settled, accepted, pruned, gone, completes⟩
      · exact quiet same
      · exact anchored_completed fresh spares exclusive accepted pruned gone completes
  | failJob jobId lockToken error now => exact anchored_failActiveJob rfl rfl spares exclusive anchored
  | failJobDiscardingRetry jobId lockToken error now =>
      exact anchored_failActiveJob rfl rfl spares exclusive anchored
  | trimEvents maxLen => exact quiet (board_of_tables (trimEventsLocked_tables s maxLen))
  | promoteDueJobs now => exact quiet (board_promoteDueLocked s now)
  | recoverStalledJobs now => exact anchored_recoverStalledJobs spares exclusive
  | pause clock => exact quiet (board_of_tables (emitEventLocked_tables _ _ _ _ _ _))
  | resume clock => exact quiet (board_of_tables (emitEventLocked_tables _ _ _ _ _ _))

end InMemoryJobQueueState

/-- No deduplication id keeps both a job and a flow, in any reachable state. In a run whose
operations spare the candidates, every candidate is kept beside an unfinished owner of its
deduplication id.
-/
theorem candidates_beside_owners {cron : Cron} {queue : QueueName} {s : InMemoryJobQueueState}
    : (Reachable cron queue s
        → ∀ deduplicationId,
            ¬ (deduplicationId ∈ s.deduplicationNext
              ∧ deduplicationId ∈ s.deduplicationNextFlows))
      ∧ (ReachableWhen cron queue (fun s call => s.SparesCandidates call.find queue call.op) s
        → ∀ deduplicationId,
            s.KeepsCandidate deduplicationId → ∃ id, s.UnfinishedOwner deduplicationId id) := by
  constructor
  · intro reachable deduplicationId both
    have exclusive : s.board.Exclusive := by
      refine reachable.invariant (fun s => s.board.Exclusive) ?_ ?_
      · rw [InMemoryJobQueueState.board_empty]
        exact Board.exclusive_empty
      · rintro s call _ exclusive _ ⟨_, rfl⟩
        exact InMemoryJobQueueState.exclusive_step cron call.find queue call.op exclusive
    rcases exclusive deduplicationId with free | free
    · exact absurd both.1 (AList.lookup_eq_none.mp free)
    · exact absurd both.2 (AList.lookup_eq_none.mp free)
  · intro run deduplicationId keeps
    have kept : s.board.Exclusive ∧ s.board.Anchored := by
      refine run.invariant (fun s => s.board.Exclusive ∧ s.board.Anchored) ?_ ?_
      · rw [InMemoryJobQueueState.board_empty]
        exact ⟨Board.exclusive_empty, Board.anchored_empty⟩
      · rintro s call _ ⟨exclusive, anchored⟩ spares ⟨fresh, rfl⟩
        exact ⟨InMemoryJobQueueState.exclusive_step cron call.find queue call.op exclusive,
          InMemoryJobQueueState.anchored_step cron call.find queue fresh spares exclusive anchored⟩
    obtain ⟨id, anchors⟩ :=
      kept.2 deduplicationId (InMemoryJobQueueState.keepsCandidate_iff.mp keeps)
    exact ⟨id, InMemoryJobQueueState.unfinishedOwner_iff.mpr anchors⟩

-----------------------------------------------------------------------------------------
-- A candidate whose owner is removed
-----------------------------------------------------------------------------------------

/-- A duplicate is kept while the owner of its deduplication id is active. -/
def keptDuplicate : List Call :=
  [ { op := .addAt "work" .null { deduplication := some { id := "key" } } 0 "first" },
    { op := .claimNext "worker" 100 0 "lease" },
    { op := .addAt "work" .null
        { deduplication := some { id := "key", keepLastIfActive := true } } 1 "second" } ]

theorem candidates_beside_owners_kept
    : (serve noCron "queue" {} keptDuplicate).KeepsCandidate "key"
      ∧ ∃ id, (serve noCron "queue" {} keptDuplicate).UnfinishedOwner "key" id := by
  have spares {s : InMemoryJobQueueState} {call : Call} (unkept : s.deduplicationNext.keys = [])
      (unkeptFlows : s.deduplicationNextFlows.keys = [])
      : s.SparesCandidates call.find "queue" call.op := by
    rintro deduplicationId (kept | kept)
    · rw [AList.mem_keys, unkept] at kept
      cases kept
    · rw [AList.mem_keys, unkeptFlows] at kept
      cases kept
  have allowed
      : AllowedCalls noCron "queue" (fun s call => s.SparesCandidates call.find "queue" call.op) {}
          keptDuplicate :=
    ⟨⟨spares rfl rfl, by decide +kernel⟩, ⟨spares rfl rfl, by decide +kernel⟩,
      ⟨spares rfl rfl, by decide +kernel⟩, trivial⟩
  have keeps : (serve noCron "queue" {} keptDuplicate).KeepsCandidate "key" :=
    .inl (by decide +kernel)
  exact ⟨keeps, candidates_beside_owners.2 (run_serve allowed) "key" keeps⟩

/-- The owner is given back and then removed. -/
def orphanedDuplicate : List Call :=
  keptDuplicate
    ++ [ { op := .releaseActive "first" "lease" 2 }, { op := .remove "first" 3 } ]

theorem reaches_orphanedDuplicate
    : (timedQueueSystem noCron "queue").Reaches ({}, 0)
        (serve noCron "queue" {} orphanedDuplicate, 3) :=
  timedRun_serve (allowedCalls_of_fresh (by decide +kernel)) (by decide)

/-- A candidate is kept, and no job is retained. -/
theorem candidate_outlives_owner
    : ¬ ∀ (cron : Cron) (queue : QueueName) (s : InMemoryJobQueueState) (start now : DateTime),
        (timedQueueSystem cron queue).Reaches ({}, start) (s, now)
        → ∀ deduplicationId,
            s.KeepsCandidate deduplicationId → ∃ id, s.UnfinishedOwner deduplicationId id := by
  intro beside
  obtain ⟨id, job, found, _⟩ :=
    beside noCron "queue" _ 0 3 reaches_orphanedDuplicate "key" (.inl (by decide +kernel))
  have empty : (serve noCron "queue" {} orphanedDuplicate).jobs.values = [] := by decide +kernel
  have member := JobMap.mem_values_of_get found
  rw [empty] at member
  cases member

end Lane
