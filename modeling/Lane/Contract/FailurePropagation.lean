import Lane.Board.Lasting
import Mathlib.Data.List.Chain

/-! Failures in nested flows: a job that fails for good fails its own parent, but not the parent's
parent, unless that has a failing child of its own.
-/

namespace Lane

/-- A parent that waits for a child without a flow failure policy. -/
structure Job.Above (child parent : Job) : Prop where
  parked : parent.state = .waitingChildren
  named : child.parentId = some parent.id
  listed : child.id ∈ parent.childIds
  unpoliced : failurePolicy child = .failParent

/-- The job's own options remove or retire it once it failed. -/
def Job.LeavesFailed (job : Job) : Prop :=
  job.options.removesFailedImmediately = true ∨ job.options.failedRetention.isSome = true

namespace InMemoryJobQueueState

/-- A retained job with the waiting parents above it, each the parent of the one before. -/
structure FailureChain (s : InMemoryJobQueueState) (first : Job) (ancestors : List Job)
    : Prop where
  retained : ∀ job ∈ first :: ancestors, s.jobs.get job.id = some job
  linked : (first :: ancestors).IsChain Job.Above

/-- The operation fails a child for good whose failure fails this parent. -/
def FailsChildOf (s : InMemoryJobQueueState) (op : Op) (parent : Job) : Prop :=
  ∃ failed, s.FailsForGood op failed ∧ Board.FailsParent failed parent.id

/-- The operation fails a child for good whose failure releases this parent's dependency. -/
def ReleasesChildOf (s : InMemoryJobQueueState) (op : Op) (parent : Job) : Prop :=
  ∃ failed, s.FailsForGood op failed ∧ Board.ReleasesParent failed parent.id

/-- After the operation the job has failed, or its own options removed its record; then its id may
be that of an admitted candidate.
-/
def EndsFailed (s : InMemoryJobQueueState) (op : Op) (t : InMemoryJobQueueState) (job : Job)
    : Prop :=
  (∃ record, t.jobs.get job.id = some record ∧ record.state = .failed)
    ∨ job.LeavesFailed
      ∧ (t.jobs.get job.id = none ∨ ∃ now next, s.MayEnter op now next ∧ next.id = job.id)

variable {cron : Cron} {find : Find} {queue : QueueName} {s t : InMemoryJobQueueState} {op : Op}
  {first job parent : Job} {ancestors owners reported : List Job} {now : DateTime}
  {settled ended after : Board} {id : JobId}

-----------------------------------------------------------------------------------------
-- Records that last through a failure
-----------------------------------------------------------------------------------------

theorem FailsForGood.active (fails : s.FailsForGood op job)
    : s.jobs.get job.id = some job ∧ job.state = .active := by
  obtain ⟨_, finishes⟩ := fails.finishes
  exact finishes.active

theorem stalledJobs_active : ∀ job ∈ s.stalledJobs now, job.state = .active := by
  intro job member
  have expired := (mem_stalledJobs.mp member).2
  unfold leaseExpired at expired
  simp only [Bool.and_eq_true, beq_iff_eq] at expired
  exact expired.1

/-- A job that lasts is still retained after the failure. -/
theorem Lasts.step (lasts : s.Lasts job) (fails : s.FailsForGood op first)
    : (step cron find queue s op).Lasts job := by
  obtain ⟨found, ⟨lockToken, error, now, allowRetry, ends, reports, active, own, terminal⟩
    | ⟨now, rfl, _, _⟩⟩ := fails
  · rw [step_of_reports ends reports]
    have ties : (failedJob first error now allowRetry).SameTies first := failedJob_ties
    exact Lasts.failActiveJob (requireOwnedActive_of_owned "fail" found active own) terminal
      (lasts.setJob found ties.id (stalledJob_follows active ties.options))
  · exact lasts.recoverStalledJobs
      (lasts.sweepStalled (fun job member => (mem_stalledJobs.mp member).1)
        (s.stalledJobs_ids_nodup now) stalledJobs_active) rfl

/-- A job that fails for good and lasts has failed. -/
theorem Lasts.step_failed (lasts : s.Lasts first) (fails : s.FailsForGood op first)
    : ∃ record,
        (Lane.step cron find queue s op).jobs.get first.id = some record
        ∧ record.state = .failed := by
  have last {failed : Job} (state : failed.state = .failed) (sameId : failed.id = first.id)
      (lasts : (Lane.step cron find queue s op).Lasts failed)
      : ∃ record,
          (Lane.step cron find queue s op).jobs.get first.id = some record
          ∧ record.state = .failed := by
    obtain ⟨record, found, follows⟩ := lasts.record
    rw [sameId] at found
    exact ⟨record, found, (follows.stays (by rw [state]; rfl)).trans state⟩
  obtain ⟨found, ⟨lockToken, error, now, allowRetry, ends, reports, active, own, terminal⟩
    | ⟨now, rfl, expired, terminal⟩⟩ := fails
  · have state := failedJob_state first error now allowRetry
    rw [terminal, if_pos rfl] at state
    have ties : (failedJob first error now allowRetry).SameTies first := failedJob_ties
    refine last state ties.id ?_
    rw [step_of_reports ends reports]
    have written := lasts.setJob found ties.id (stalledJob_follows active ties.options)
    refine Lasts.failActiveJob (requireOwnedActive_of_owned "fail" found active own) terminal
      ⟨written.unretained, ?_, ?_⟩
    · rw [ties.options]
      exact lasts.unremoved
    · refine ⟨failedJob first error now allowRetry, ?_, .refl _⟩
      simp only [InMemoryJobQueueState.setJob, JobMap.get_insert, if_true]
  · have state := stalledJob_state first now
    rw [terminal, if_pos rfl] at state
    have ties := stalledJob_ties first now
    refine last state ties.id ?_
    exact lasts.recoverStalledJobs
      (lasts_sweepStalled lasts (mem_stalledJobs.mpr ⟨found, expired⟩) terminal
        (fun job member => (mem_stalledJobs.mp member).1) (s.stalledJobs_ids_nodup now)
        stalledJobs_active) ties.id

-----------------------------------------------------------------------------------------
-- The failing job and its ancestors
-----------------------------------------------------------------------------------------

theorem failed_of_failedOrGone {record : Job} (ends : t.board.FailedOrGone id)
    (found : t.jobs.get id = some record)
    : record.state = .failed :=
  JobState.phase_eq_failed.mp (ends _ (board_cards_of_get found))

/-- A job that fails for good has failed or is gone at the end, unless an admitted candidate has
its id.
-/
theorem FailureCourse.owner_failed (course : s.FailureCourse op now owners reported settled ended after)
    (member : first ∈ owners)
    : after.FailedOrGone first.id ∨ ∃ next, s.MayEnter op now next ∧ next.id = first.id := by
  have stage : s.Stage op settled := .of_retires course.retires course.finishes
  have finishes
      : ∀ owner ∈ owners, s.Finishes op now owner owner.options.removesFailedImmediately :=
    fun owner member => (course.finishes owner _).mpr ⟨member, rfl⟩
  have ends
      : ended.FailedOrGone first.id ∨ ∃ next, s.MayEnter op now next ∧ next.id = first.id := by
    refine stage.ownersEnd
      (fun b => b.FailedOrGone first.id ∨ ∃ next, s.MayEnter op now next ∧ next.id = first.id)
      (.inl (course.failed first member)) finishes ?_ ?_ course.ends
    · intro b after sound settles
      exact sound.imp_left (fun ends => ends.settles settles)
    · intro b after owner admitted sound ends enters
      rcases sound with failed | entered
      · by_cases taken : ∃ job ∈ admitted, job.id = first.id
        · obtain ⟨job, inside, same⟩ := taken
          exact .inr ⟨job, enters job inside, same⟩
        · refine .inl ?_
          intro card found
          rcases ends.card_before found with ⟨old, shown, rfl | ⟨_, _, _, _, rfl⟩⟩ | ⟨job, inside, same, _⟩
          · exact failed _ shown
          · exact failed old shown
          · exact absurd ⟨job, inside, same⟩ taken
      · exact .inr entered
  exact ends.imp_left (fun failed => failed.settles course.reports.settles)

/-- A parent that waits is unfinished when the failures are reported. -/
theorem FailureCourse.waits (course : s.FailureCourse op now owners reported settled ended after)
    (found : s.jobs.get parent.id = some parent) (parked : parent.state = .waitingChildren)
    : ended.Unfinished parent.id := by
  have unfinished : s.board.Unfinished parent.id :=
    board_unfinished_of_get found (by rw [parked]; rfl)
  refine course.ends.unfinished (course.retires.retained unfinished ?_)
  intro member
  obtain ⟨owner, isOwner, same⟩ := List.mem_map.mp member
  obtain ⟨shown, active⟩ := ((course.fail owner).mpr isOwner).active
  rw [same, found] at shown
  obtain rfl := Option.some.inj shown
  rw [parked] at active
  cases active

theorem FailureChain.parked (chain : s.FailureChain first ancestors) (member : parent ∈ ancestors)
    : parent.state = .waitingChildren := by
  have linked := chain.linked
  clear chain
  induction ancestors generalizing first with
  | nil => cases member
  | cons next rest ih =>
      obtain ⟨above, linked⟩ := List.isChain_cons_cons.mp linked
      rcases List.mem_cons.mp member with rfl | member
      · exact above.parked
      · exact ih member linked

/-- An ancestor with a failing child of its own ends failed. -/
theorem endsFailed_ancestor (fails : s.FailsForGood op first)
    (found : s.jobs.get parent.id = some parent) (parked : parent.state = .waitingChildren)
    (served : s.FailsChildOf op parent) (leaves : parent.LeavesFailed ∨ s.Unretained)
    : s.EndsFailed op (step cron find queue s op) parent := by
  obtain ⟨now, owners, reported, settled, ended, course⟩ := failureCourse_step cron find queue fails
  obtain ⟨failed, failsToo, reports⟩ := served
  have ends : (step cron find queue s op).board.FailedOrGone parent.id := by
    refine course.reports.failsParent (.inl (course.waits found parked)) ⟨failed, ?_, reports⟩
    exact (course.members failed).mpr ((course.fail failed).mp failsToo)
  cases shown : (step cron find queue s op).jobs.get parent.id with
  | some record => exact .inl ⟨record, shown, failed_of_failedOrGone ends shown⟩
  | none =>
      by_cases own : parent.LeavesFailed
      · exact .inr ⟨own, .inl shown⟩
      · have unremoved : parent.options.removesFailedImmediately = false :=
          (Bool.not_eq_true _).mp (fun removes => own (.inl removes))
        have lasts : s.Lasts parent :=
          ⟨leaves.resolve_left own, unremoved, parent, found, .refl parent⟩
        have still : (Lane.step cron find queue s op).Lasts parent := lasts.step fails
        obtain ⟨record, retained, _⟩ := still.record
        rw [shown] at retained
        cases retained

/-- The failing job itself ends failed. -/
theorem endsFailed_first (fails : s.FailsForGood op first)
    (leaves : first.LeavesFailed ∨ s.Unretained)
    : s.EndsFailed op (step cron find queue s op) first := by
  by_cases own : first.LeavesFailed
  · obtain ⟨now, owners, reported, settled, ended, course⟩ :=
      failureCourse_step cron find queue fails
    cases shown : (step cron find queue s op).jobs.get first.id with
    | none => exact .inr ⟨own, .inl shown⟩
    | some record =>
        rcases course.owner_failed ((course.fail first).mp fails) with ends | ⟨next, enters, same⟩
        · exact .inl ⟨record, shown, failed_of_failedOrGone ends shown⟩
        · exact .inr ⟨own, .inr ⟨now, next, enters, same⟩⟩
  · have unremoved : first.options.removesFailedImmediately = false :=
      (Bool.not_eq_true _).mp (fun removes => own (.inl removes))
    have lasts : s.Lasts first :=
      ⟨leaves.resolve_left own, unremoved, first, fails.active.1, .refl first⟩
    exact .inl (lasts.step_failed fails)

/-- An ancestor that no failing child fails or releases still waits or runs. -/
theorem not_endsFailed_spared (fails : s.FailsForGood op first)
    (found : s.jobs.get parent.id = some parent) (parked : parent.state = .waitingChildren)
    (spared : ¬ s.FailsChildOf op parent) (unreleased : ¬ s.ReleasesChildOf op parent)
    : ¬ s.EndsFailed op (step cron find queue s op) parent := by
  obtain ⟨now, owners, reported, settled, ended, course⟩ := failureCourse_step cron find queue fails
  have unfinished : (step cron find queue s op).board.Unfinished parent.id := by
    refine course.reports.unfinished (course.waits found parked) ?_
    intro failed member
    have failsToo := (course.fail failed).mpr ((course.members failed).mp member)
    exact ⟨fun reports => spared ⟨failed, failsToo, reports⟩,
      fun releases => unreleased ⟨failed, failsToo, releases⟩⟩
  obtain ⟨card, shown, alive⟩ := unfinished
  obtain ⟨record, retained, rfl⟩ := board_cards_some shown
  rintro (⟨other, same, failed⟩ | ⟨_, gone | ⟨time, next, ⟨_, _, jobs, _, _, vacates, inside⟩, same⟩⟩)
  · rw [retained] at same
    obtain rfl := Option.some.inj same
    simp only [Job.card, failed, JobState.phase_failed, Phase.isTerminal] at alive
    cases alive
  · rw [retained] at gone
    cases gone
  · have waiting : s.board.Unfinished next.id := by
      rw [same]
      exact board_unfinished_of_get found (by rw [parked]; rfl)
    obtain ⟨_, job, _, finishes, sameId⟩ := vacates next inside waiting
    obtain ⟨running, active⟩ := finishes.active
    rw [sameId, same, found] at running
    obtain rfl := Option.some.inj running
    rw [parked] at active
    cases active

end InMemoryJobQueueState

/-- A leased leaf below a waiting parent below a waiting root. -/
def nestedFlow : InMemoryJobQueueState :=
  serve noCron "queue" {}
    [ { op := .addFlowAt ({ name := "work" }, "root") [({ name := "work" }, "middle")] 0 },
      { op := .claimNext "worker" 100 0 "lease-1" },
      { op := .addFlowChildrenAt "middle" "lease-1" [({ name := "work" }, "leaf")] 1 },
      { op := .claimNext "worker" 100 1 "lease-2" } ]

theorem reachable_nestedFlow : Reachable noCron "queue" nestedFlow :=
  reaches_serve (by decide +kernel)

def failLeaf : Op := .failJobDiscardingRetry "leaf" "lease-2" "error" 2

/-- One record is above another when the stored records say so. -/
theorem above_of_stored {s : InMemoryJobQueueState} {child parent : Job}
    (childFound : s.jobs.get child.id = some child)
    (parentFound : s.jobs.get parent.id = some parent)
    (stored
      : (s.jobs.get child.id).any (fun child =>
          (s.jobs.get parent.id).any (fun parent =>
            parent.state == .waitingChildren && child.parentId == some parent.id
              && decide (child.id ∈ parent.childIds)
              && decide (failurePolicy child = .failParent))) = true)
    : child.Above parent := by
  rw [childFound, parentFound] at stored
  simp only [Option.any_some, Bool.and_eq_true, beq_iff_eq, decide_eq_true_eq] at stored
  obtain ⟨⟨⟨parked, named⟩, listed⟩, unpoliced⟩ := stored
  exact ⟨parked, named, listed, unpoliced⟩

theorem exists_stored {s : InMemoryJobQueueState} {id : JobId}
    (stored : (s.jobs.get id).isSome = true)
    : ∃ job, s.jobs.get job.id = some job ∧ job.id = id := by
  obtain ⟨job, found⟩ := Option.isSome_iff_exists.mp stored
  obtain rfl := JobMap.get_id found
  exact ⟨job, found, rfl⟩

/-- The leaf and the two parents above it, and the failure of the leaf. -/
theorem chain_nestedFlow
    : ∃ leaf middle root,
        nestedFlow.FailureChain leaf [middle, root]
        ∧ nestedFlow.FailsForGood failLeaf leaf
        ∧ root.id = "root" := by
  obtain ⟨leaf, leafFound, leafId⟩ : ∃ job, nestedFlow.jobs.get job.id = some job ∧ job.id = "leaf" :=
    exists_stored (by decide +kernel)
  obtain ⟨middle, middleFound, middleId⟩
      : ∃ job, nestedFlow.jobs.get job.id = some job ∧ job.id = "middle" :=
    exists_stored (by decide +kernel)
  obtain ⟨root, rootFound, rootId⟩
      : ∃ job, nestedFlow.jobs.get job.id = some job ∧ job.id = "root" :=
    exists_stored (by decide +kernel)
  have lower : leaf.Above middle := by
    refine above_of_stored leafFound middleFound ?_
    rw [leafId, middleId]
    decide +kernel
  have upper : middle.Above root := by
    refine above_of_stored middleFound rootFound ?_
    rw [middleId, rootId]
    decide +kernel
  have fails : nestedFlow.FailsForGood failLeaf leaf := by
    have stored
        : (nestedFlow.jobs.get leaf.id).any (fun leaf =>
            leaf.state == .active && leaf.lockToken == some "lease-2") = true := by
      rw [leafId]
      decide +kernel
    rw [leafFound] at stored
    simp only [Option.any_some, Bool.and_eq_true, beq_iff_eq] at stored
    refine ⟨leafFound, .inl ⟨"lease-2", "error", 2, false, ?_, rfl, stored.1, stored.2, rfl⟩⟩
    rw [leafId]
    rfl
  refine ⟨leaf, middle, root, ⟨?_, ?_⟩, fails, rootId⟩
  · simp only [List.forall_mem_cons, List.not_mem_nil, false_implies, implies_true, and_true]
    exact ⟨leafFound, middleFound, rootFound⟩
  · exact .cons_cons lower (.cons_cons upper (.singleton root))

/-- A queue whose records have no retention option and that keeps no candidate. -/
theorem unretained_of_stored {s : InMemoryJobQueueState}
    (stored : s.jobs.values.all (fun job => job.options.failedRetention.isNone) = true)
    (unkept : s.deduplicationNext.keys = []) (unkeptFlows : s.deduplicationNextFlows.keys = [])
    : s.Unretained where
  jobs found :=
    Option.isNone_iff_eq_none.mp (List.all_eq_true.mp stored _ (JobMap.mem_values_of_get found))
  next := by
    intro key job kept
    have absent : key ∉ s.deduplicationNext := by
      rw [AList.mem_keys, unkept]
      exact List.not_mem_nil
    rw [AList.lookup_eq_none.mpr absent] at kept
    cases kept
  nextFlows := by
    intro key flow kept
    have absent : key ∉ s.deduplicationNextFlows := by
      rw [AList.mem_keys, unkeptFlows]
      exact List.not_mem_nil
    rw [AList.lookup_eq_none.mpr absent] at kept
    cases kept

end Lane
