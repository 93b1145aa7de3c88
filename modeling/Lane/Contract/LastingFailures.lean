import Lane.Filing.FailedChildren
import Lane.Job.Dependencies
import Lane.Life.Coherence
import Lane.Life.Processing
import Lane.Stock.Operations

/-! A child that fails its parent keeps the parent from completing, as long as the parent is
retained and the child is neither retried nor detached.
-/

namespace Lane

-----------------------------------------------------------------------------------------
-- Exclusive failure policies
-----------------------------------------------------------------------------------------

theorem lasting_failsParentOnly : Lasting JobOptions.FailsParentOnly where
  unnamed _ exclusive := exclusive
  delayed _ _ exclusive := exclusive
  ordered _ _ _ exclusive := exclusive

theorem ok_of_bind {α β : Type} {checked : Result α} {rest : α → Result β} {result : β}
    (bound : (checked >>= rest) = .ok result)
    : ∃ value, checked = .ok value ∧ rest value = .ok result := by
  cases checked with
  | error => cases bound
  | ok value => exact ⟨value, rfl, bound⟩

/-- Validated options have at most one failure policy. -/
theorem failsParentOnly_of_validate {cron : Cron} {options : JobOptions} {now : DateTime}
    (valid : validateJobOptionsAt cron options now = .ok ())
    : options.FailsParentOnly := by
  intro fails
  obtain ⟨_, valid, _⟩ := ok_of_bind valid
  obtain ⟨_, _, valid⟩ := ok_of_bind valid
  obtain ⟨_, _, valid⟩ := ok_of_bind valid
  obtain ⟨_, _, valid⟩ := ok_of_bind valid
  obtain ⟨_, _, valid⟩ := ok_of_bind valid
  obtain ⟨_, _, valid⟩ := ok_of_bind valid
  obtain ⟨_, _, valid⟩ := ok_of_bind valid
  simp only at valid
  split at valid
  · cases valid
  · next single =>
      rw [fails] at single
      have exclusive
          : ∀ ignores removes continues : Bool,
              ¬ [ignores, removes, continues, true].count true > 1
              → ignores = false ∧ continues = false := by
        decide
      exact exclusive _ _ _ single

-----------------------------------------------------------------------------------------
-- Completion is refused
-----------------------------------------------------------------------------------------

namespace InMemoryJobQueueState

variable {s : InMemoryJobQueueState} {parent : Job} {parentId childId : JobId}

/-- The counts only add to the failures of the side index, by induction on the children. -/
theorem failed_le_foldl (jobs : JobMap) (index : Option InMemoryFlowDependencyIndex)
    (childIds : List JobId) (counts : JobFlowDependencyCounts)
    : counts.failed
      ≤ (childIds.foldl
          (fun counts childId =>
            if flowDependencyIndexContains index childId then
              counts
            else
              counts.addChild (jobs.get childId))
          counts).failed := by
  induction childIds generalizing counts with
  | nil => exact le_refl _
  | cons childId rest ih =>
      rw [List.foldl_cons]
      refine le_trans ?_ (ih _)
      split
      · exact le_refl _
      · unfold JobFlowDependencyCounts.addChild
        split
        · exact le_refl _
        · repeat' split
          all_goals first | exact le_refl _ | exact Nat.le_succ _

/-- A parent with a failure on record cannot be completed. -/
theorem requireCompletable_of_records (records : s.shelf.Records parentId childId)
    (lockToken : JobLockToken)
    : ∃ error, s.requireCompletable parentId lockToken = .error error := by
  cases accepted : s.requireCompletable parentId lockToken with
  | error error => exact ⟨error, rfl⟩
  | ok job =>
      exfalso
      have found := (requireCompletable_ok accepted).1
      obtain ⟨index, filed, failed⟩ := records (shelf_retained found)
      have counted : 0 < (flowDependencyCounts job s.jobs (some index)).failed := by
        refine lt_of_lt_of_le (Finset.card_pos.mpr ⟨childId, failed⟩) ?_
        have counts := failed_le_foldl s.jobs (some index) job.childIds
          { processed := index.processed.keys.length
            unprocessed := 0
            failed := index.failed.card
            ignored := index.ignored.keys.length
            missing := 0 }
        exact counts
      have known : s.flowDependencies.lookup parentId = some index := filed
      unfold requireCompletable at accepted
      rw [found] at accepted
      obtain ⟨_, _, accepted⟩ := ok_of_bind accepted
      obtain ⟨_, _, accepted⟩ := ok_of_bind accepted
      obtain ⟨_, resolved, _⟩ := ok_of_bind accepted
      unfold ensureFlowDependenciesAreResolved at resolved
      rw [known] at resolved
      simp only [gt_iff_lt, counted, if_true] at resolved
      split at resolved <;> cases resolved

end InMemoryJobQueueState

-----------------------------------------------------------------------------------------
-- Runs
-----------------------------------------------------------------------------------------

/-- The step keeps the parent and neither retries nor detaches the child. -/
structure Outlasts (cron : Cron) (queue : QueueName) (parentId childId : JobId)
    (s : InMemoryJobQueueState) (call : Call)
    : Prop where
  retained : (step cron call.find queue s call.op).jobs.containsKey parentId = true
  refused : call.op.clearsChild = some childId → step cron call.find queue s call.op = s

/-- Besides, no kept candidate replaces the parent or starts the child over below it. -/
structure SparesFailure (cron : Cron) (queue : QueueName) (parentId childId : JobId)
    (s : InMemoryJobQueueState) (call : Call)
    : Prop where
  outlasts : Outlasts cron queue parentId childId s call
  parent : ¬ s.MayOffer call.op parentId
  child
    : ∀ now next,
        s.MayEnter call.op now next → next.id = childId → next.parentId ≠ some parentId

variable {cron : Cron} {queue : QueueName} {s t u : InMemoryJobQueueState} {call : Call}
  {parentId childId : JobId}

theorem SparesFailure.leaves (spares : SparesFailure cron queue parentId childId s call)
    : ∀ now next, s.MayEnter call.op now next → Board.LeavesFailure parentId childId next := by
  rintro now next enters
  refine ⟨?_, spares.child now next enters⟩
  rintro same
  obtain ⟨owner, removes, jobs, finishes, candidate, _, member⟩ := enters
  exact spares.parent ⟨now, owner, removes, jobs, finishes, candidate, next, member, same⟩

/-- The failure is on the board and on record, and the parent is retained. -/
structure FailureHeld (parentId childId : JobId) (s : InMemoryJobQueueState) : Prop where
  below : s.board.FailedBelow parentId childId
  records : s.shelf.Records parentId childId
  retained : s.jobs.containsKey parentId = true
  exclusive : s.Stocked JobOptions.FailsParentOnly

/-- A step that spares the failure keeps it. -/
theorem FailureHeld.step (held : FailureHeld parentId childId s)
    (spares : SparesFailure cron queue parentId childId s call)
    (stepped : (queueSystem cron queue).Step s call t)
    : FailureHeld parentId childId t := by
  obtain ⟨fresh, rfl⟩ := stepped
  by_cases cleared : call.op.clearsChild = some childId
  · rw [spares.outlasts.refused cleared]
    exact held
  · obtain ⟨parent, found⟩ := JobMap.containsKey_eq_true.mp held.retained
    have shown : ∃ card, s.board.cards parentId = some card :=
      ⟨_, InMemoryJobQueueState.board_cards_of_get found⟩
    have sources := InMemoryJobQueueState.spares_source queue fresh held.below shown
      held.exclusive.retained cleared spares.parent
    refine ⟨?_, ?_, spares.outlasts.retained, ?_⟩
    · exact InMemoryJobQueueState.failedBelow_step cron call.find queue fresh held.below shown
        cleared spares.leaves
    · exact (InMemoryJobQueueState.files_step cron call.find queue s call.op).records held.records
        sources
    · exact held.exclusive.step lasting_failsParentOnly (fun _ _ => failsParentOnly_of_validate)
        call.find queue call.op

/-- Only a completion that is accepted completes a job. -/
theorem incomplete_step (stepped : (queueSystem cron queue).Step t call u)
    (refused : ∀ lockToken, ∃ error, t.requireCompletable parentId lockToken = .error error)
    (incomplete : t.lives.Incomplete parentId)
    : u.lives.Incomplete parentId := by
  obtain ⟨_, rfl⟩ := stepped
  by_cases completes : call.op.completedId = some parentId
  · have same : step cron call.find queue t call.op = t := by
      generalize call.op = op at completes ⊢
      cases op with
      | completeJob jobId lockToken value now uuid =>
          obtain rfl := Option.some.inj completes
          obtain ⟨error, failed⟩ := refused lockToken
          change (t.completeJob cron jobId lockToken value now uuid).1 = t
          unfold InMemoryJobQueueState.completeJob
          rw [failed]
      | _ => cases completes
    rw [same]
    exact incomplete
  · obtain ⟨marks, turns⟩ := InMemoryJobQueueState.turned_step cron call.find queue t call.op
    exact turns.incomplete incomplete completes

/-- Once a child that fails its parent has failed at the end of its own lease, every completion of
the parent is refused and no step makes it completed, as long as the parent is retained, the child
is neither retried nor detached, and no kept candidate takes the place of one of them.
-/
theorem failed_child_blocks_parent (reachable : Reachable cron queue s) {now : DateTime}
    {job parent : Job} (fails : s.FailsTerminally call.op now job)
    (fatal : job.options.failParentOnFailure = true) (named : job.parentId = some parentId)
    (found : s.jobs.get parentId = some parent) (listed : job.id ∈ parent.childIds)
    (spares : SparesFailure cron queue parentId job.id s call)
    (failing : (queueSystem cron queue).Step s call t)
    (run : (queueSystem cron queue).Run (SparesFailure cron queue parentId job.id) t u)
    : (∀ lockToken, ∃ error, u.requireCompletable parentId lockToken = .error error)
      ∧ ∀ call after record,
          (queueSystem cron queue).Step u call after
          → after.jobs.get parentId = some record
          → record.state = .completed
          → ∃ before, u.jobs.get parentId = some before ∧ before.state = .completed := by
  have exclusive : s.Stocked JobOptions.FailsParentOnly :=
    .of_reachable lasting_failsParentOnly (fun _ _ => failsParentOnly_of_validate) reachable
  have policy : failurePolicy job = .deferParent := by
    unfold failurePolicy
    rw [if_pos fatal]
  have lists : ∀ card, s.board.cards parentId = some card → job.id ∈ card.childIds := by
    intro card shown
    rw [InMemoryJobQueueState.board_cards_of_get found] at shown
    obtain rfl := Option.some.inj shown
    exact listed
  have held : FailureHeld parentId job.id t := by
    obtain ⟨_, rfl⟩ := failing
    refine ⟨?_, ?_, spares.outlasts.retained, ?_⟩
    · exact fails.failedBelow cron call.find queue policy lists spares.leaves
    · exact fails.records cron call.find queue named policy
        (exclusive.retained fails.finishes.active.1) lists spares.leaves spares.parent
    · exact exclusive.step lasting_failsParentOnly (fun _ _ => failsParentOnly_of_validate)
        call.find queue call.op
  have lasts : FailureHeld parentId job.id u :=
    run.invariant (FailureHeld parentId job.id) held
      (fun held spares stepped => held.step spares stepped)
  have refused := InMemoryJobQueueState.requireCompletable_of_records lasts.records
  refine ⟨refused, ?_⟩
  intro call after record stepped known completed
  by_contra never
  have incomplete : u.lives.Incomplete parentId := by
    intro life shown done
    obtain ⟨before, stored, rfl⟩ := Option.map_eq_some_iff.mp shown
    exact never ⟨before, stored, done⟩
  have still := incomplete_step stepped refused incomplete
  refine still record.life ?_ completed
  simp only [InMemoryJobQueueState.lives, known, Option.map_some]

-----------------------------------------------------------------------------------------
-- A child that fails together with its own child
-----------------------------------------------------------------------------------------

/-- A parent with one child that fails it, up to the claim of the child. -/
def claimedFatalChild : List Call :=
  [ { op := .addFlowAt ({ name := "work" }, "parent")
        [({ name := "work", options := { failParentOnFailure := true } }, "child")] 0 },
    { op := .claimNext "worker" 10 0 "lease-1" } ]

/-- The child fans out, and the failure of its own child fails it. -/
def failedWithChild : InMemoryJobQueueState :=
  serve noCron "queue" {}
    (claimedFatalChild
      ++ [ { op := .addFlowChildrenAt "child" "lease-1" [({ name := "work" }, "leaf")] 1 },
           { op := .claimNext "worker" 10 1 "lease-2" },
           { op := .failJob "leaf" "lease-2" "broken" 2 } ])

/-- The failed child is removed, and the parent is claimed and completed. -/
def completedOverFailure : List Call :=
  [ { op := .remove "child" 3 },
    { op := .claimNext "worker" 10 3 "lease-3" },
    { op := .completeJob "parent" "lease-3" .null 4 "next" } ]

theorem parent_completed_over_failure
    : ¬ ∀ (cron : Cron) (queue : QueueName) (s t : InMemoryJobQueueState)
        (parentId childId : JobId) (parent child : Job),
        Reachable cron queue s
        → s.jobs.get parentId = some parent
        → parent.state ≠ .completed
        → s.jobs.get childId = some child
        → child.id ∈ parent.childIds
        → child.parentId = some parentId
        → child.options.failParentOnFailure = true
        → child.state = .failed
        → (queueSystem cron queue).Run (Outlasts cron queue parentId childId) s t
        → ∀ later, t.jobs.get parentId = some later → later.state ≠ .completed := by
  intro blocks
  have reached : Reachable noCron "queue" failedWithChild := reaches_serve (by decide +kernel)
  have run
      : (queueSystem noCron "queue").Run (Outlasts noCron "queue" "parent" "child")
          failedWithChild (serve noCron "queue" failedWithChild completedOverFailure) := by
    refine run_serve ⟨⟨⟨by decide +kernel, nofun⟩, by decide +kernel⟩,
      ⟨⟨by decide +kernel, nofun⟩, by decide +kernel⟩,
      ⟨⟨by decide +kernel, nofun⟩, by decide +kernel⟩, trivial⟩
  have parents
      : (failedWithChild.jobs.get "parent").any
          (fun parent => parent.state != .completed && parent.childIds.contains "child") = true := by
    decide +kernel
  have children
      : (failedWithChild.jobs.get "child").any
          (fun child => child.id == "child" && child.parentId == some "parent"
            && child.options.failParentOnFailure && child.state == .failed) = true := by
    decide +kernel
  have done
      : ((serve noCron "queue" failedWithChild completedOverFailure).jobs.get "parent").any
          (fun parent => parent.state == .completed) = true := by
    decide +kernel
  obtain ⟨parent, found, isParent⟩ := (Option.any_eq_true _ _).mp parents
  obtain ⟨child, known, isChild⟩ := (Option.any_eq_true _ _).mp children
  obtain ⟨later, shown, isDone⟩ := (Option.any_eq_true _ _).mp done
  simp only [Bool.and_eq_true, bne_iff_ne, beq_iff_eq, List.contains_iff_mem] at isParent isChild isDone
  obtain ⟨alive, listed⟩ := isParent
  obtain ⟨⟨⟨isId, named⟩, fatal⟩, failed⟩ := isChild
  rw [← isId] at listed
  exact blocks noCron "queue" _ _ "parent" "child" parent child reached found alive known listed named
    fatal failed run later shown isDone

-----------------------------------------------------------------------------------------
-- A failed child that is removed
-----------------------------------------------------------------------------------------

/-- A step without kept candidates that keeps the parent and the child's failure. -/
theorem sparesFailure_of_unkept (unkept : s.deduplicationNext.keys = [])
    (unkeptFlows : s.deduplicationNextFlows.keys = [])
    (retained : (step cron call.find queue s call.op).jobs.containsKey parentId = true)
    (apart : call.op.clearsChild ≠ some childId)
    : SparesFailure cron queue parentId childId s call where
  outlasts := ⟨retained, fun cleared => absurd cleared apart⟩
  parent := by
    rintro ⟨_, _, _, _, _, candidate, _⟩
    exact InMemoryJobQueueState.not_candidate_of_unkept unkept unkeptFlows candidate
  child _ _ enters := absurd enters (InMemoryJobQueueState.not_mayEnter_of_unkept unkept unkeptFlows)

/-- The claimed child before its failure is reported. -/
def beforeFailure : InMemoryJobQueueState := serve noCron "queue" {} claimedFatalChild

/-- The report of the failure. -/
def reportsFatalFailure : Call := { op := .failJob "child" "lease-1" "broken" 1 }

/-- The failed child is removed, and the parent is claimed. -/
def claimedOverFailure : InMemoryJobQueueState :=
  serve noCron "queue" (step noCron .first "queue" beforeFailure reportsFatalFailure.op)
    [ { op := .remove "child" 3 }, { op := .claimNext "worker" 10 3 "lease-3" } ]

theorem failed_child_blocks_parent_removed
    : (∀ lockToken,
        ∃ error, claimedOverFailure.requireCompletable "parent" lockToken = .error error)
      ∧ ∀ call after record,
          (queueSystem noCron "queue").Step claimedOverFailure call after
          → after.jobs.get "parent" = some record
          → record.state = .completed
          → ∃ before, claimedOverFailure.jobs.get "parent" = some before ∧ before.state = .completed := by
  have reached : Reachable noCron "queue" beforeFailure := reaches_serve (by decide +kernel)
  have checked
      : (beforeFailure.requireOwnedActive "child" "lease-1" "fail").toOption.any
          (fun job => job.id == "child" && InMemoryJobQueueState.failsTerminally job true
            && job.options.failParentOnFailure && job.parentId == some "parent") = true := by
    decide +kernel
  have parents
      : (beforeFailure.jobs.get "parent").any (fun parent => parent.childIds.contains "child")
        = true := by
    decide +kernel
  obtain ⟨parent, found, listed⟩ := (Option.any_eq_true _ _).mp parents
  cases accepted : beforeFailure.requireOwnedActive "child" "lease-1" "fail" with
  | error error =>
      rw [accepted] at checked
      cases checked
  | ok job =>
      rw [accepted] at checked
      simp only [Except.toOption, Option.any_some, Bool.and_eq_true, beq_iff_eq] at checked
      obtain ⟨⟨⟨isId, terminal⟩, fatal⟩, named⟩ := checked
      have fails : beforeFailure.FailsTerminally reportsFatalFailure.op 1 job :=
        .reported rfl rfl accepted terminal
      have member : job.id ∈ parent.childIds := by
        rw [isId]
        exact List.contains_iff_mem.mp listed
      have spares {s : InMemoryJobQueueState} {call : Call}
          (unkept : s.deduplicationNext.keys = []) (unkeptFlows : s.deduplicationNextFlows.keys = [])
          (retained : (step noCron call.find "queue" s call.op).jobs.containsKey "parent" = true)
          (apart : call.op.clearsChild ≠ some "child")
          : SparesFailure noCron "queue" "parent" job.id s call :=
        sparesFailure_of_unkept unkept unkeptFlows retained (isId ▸ apart)
      have failing
          : (queueSystem noCron "queue").Step beforeFailure reportsFatalFailure
              (step noCron .first "queue" beforeFailure reportsFatalFailure.op) :=
        ⟨by decide +kernel, rfl⟩
      refine failed_child_blocks_parent reached fails fatal named found member
        (spares (by decide +kernel) (by decide +kernel) (by decide +kernel) nofun) failing
        (run_serve ?_)
      exact
        ⟨⟨spares (by decide +kernel) (by decide +kernel) (by decide +kernel) nofun,
            by decide +kernel⟩,
          ⟨spares (by decide +kernel) (by decide +kernel) (by decide +kernel) nofun,
            by decide +kernel⟩,
          trivial⟩

end Lane
