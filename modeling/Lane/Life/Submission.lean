import Lane.Board.Flows
import Lane.Life.Turns

/-! The turns of submissions: single jobs, batches, flows and dynamic fan-outs. -/

namespace Lane

namespace InMemoryJobQueueState

variable {o : Occasion} {s t u : InMemoryJobQueueState} {job : Job} {jobId parentId : JobId}
  {now : DateTime}

-----------------------------------------------------------------------------------------
-- Submissions
-----------------------------------------------------------------------------------------

/-- A replaced owner leaves, and no record appears. -/
theorem turned_replaceDelayedOwner (s : InMemoryJobQueueState) (job existing : Job)
    (now : DateTime)
    : s.Turned o (s.replaceDelayedOwner job existing now) := by
  have removed := turned_removeJobRecordLocked (o := o) s existing.id
  unfold replaceDelayedOwner
  split
  · next nothing =>
      rw [nothing] at removed
      exact removed
  · next something =>
      rw [something] at removed
      exact removed.shown (by simp)

theorem absent_replaceDelayedOwner (absent : s.jobs.get jobId = none) (job existing : Job)
    (now : DateTime)
    : (s.replaceDelayedOwner job existing now).jobs.get jobId = none := by
  have cards : (s.replaceDelayedOwner job existing now).board.cards jobId = none := by
    have taken := board_removeJobRecordLocked s existing.id
    have gone : (s.board.without {existing.id}).cards jobId = none := by
      rcases Classical.em (jobId ∈ ({existing.id} : Set JobId)) with member | other
      · exact Board.without_cards_of_mem member
      · rw [Board.without_cards_of_notMem other, board_cards_none]
        exact absent
    unfold replaceDelayedOwner
    split
    · next nothing =>
        rw [nothing] at taken
        rw [taken]
        exact gone
    · next something =>
        rw [something] at taken
        rw [board_of_tables (emitReplacedDeduplicatedOwnerEventsLocked_tables _ _ _ _),
          board_of_tables (emitRemovedEventLocked_tables _ _ _), taken]
        exact gone
  exact board_cards_none.mp cards

@[simp] theorem preserveReplacementDeduplicationExpiration_life (candidate existing : Job)
    : (preserveReplacementDeduplicationExpiration candidate existing).life = candidate.life := by
  unfold preserveReplacementDeduplicationExpiration
  simp only
  split <;> rfl

@[simp] theorem preserveReplacementDeduplicationExpiration_id (candidate existing : Job)
    : (preserveReplacementDeduplicationExpiration candidate existing).id = candidate.id := by
  unfold preserveReplacementDeduplicationExpiration
  simp only
  split <;> rfl

/-- An admission of an absent new record is a sequence of turns. -/
def Admission (o : Occasion) (now : DateTime)
    (insert : InMemoryJobQueueState → Job → DateTime → InMemoryJobQueueState × Job)
    : Prop :=
  ∀ {s : InMemoryJobQueueState} {job : Job},
    s.jobs.get job.id = none → job.Starts o → s.Turned o (insert s job now).1

theorem turned_insertUnlessRepeated
    {insert : InMemoryJobQueueState → Job → DateTime → InMemoryJobQueueState × Job} {find : Find}
    (inserts : Admission o now insert) (absent : s.jobs.get job.id = none)
    (starts : job.Starts o)
    : s.Turned o (s.insertUnlessRepeated insert find job now).1 := by
  unfold insertUnlessRepeated
  split
  · exact .refl s
  · exact inserts absent starts

theorem turned_submitLocked
    {insert : InMemoryJobQueueState → Job → DateTime → InMemoryJobQueueState × Job} {find : Find}
    (inserts : Admission o now insert) (starts : job.Starts o)
    : s.Turned o (s.submitLocked insert find job now).1 := by
  unfold submitLocked
  split
  · exact .refl s
  · next absent =>
      split
      · exact turned_insertUnlessRepeated inserts absent starts
      · next existing _ =>
          split
          · have replaced := turned_replaceDelayedOwner (o := o) s
              (preserveReplacementDeduplicationExpiration job existing) existing now
            refine replaced.trans (turned_insertUnlessRepeated inserts ?_ ?_)
            · rw [preserveReplacementDeduplicationExpiration_id]
              exact absent_replaceDelayedOwner absent _ _ _
            · exact starts.of_same (preserveReplacementDeduplicationExpiration_life _ _)
          · unfold coalesceDuplicate
            simp only
            refine .of_eq ?_
            split
            · simp
            · simp

theorem turned_addAt (cron : Cron) (find : Find) (queue : QueueName) (s : InMemoryJobQueueState)
    (name : String) (payload : Value) (options : JobOptions) (uuid : JobId) (reads : o.reads now)
    : s.Turned o (s.addAt cron find queue name payload options now uuid).1 := by
  unfold addAt
  split
  · exact .refl s
  · exact turned_submitLocked turned_insertCreated (starts_new reads)

/-- A batch is submitted job by job, by induction on the jobs. -/
theorem turned_submitAllLocked (find : Find) (s : InMemoryJobQueueState) {jobs : List Job}
    (starts : ∀ job ∈ jobs, job.Starts o)
    : s.Turned o (s.submitAllLocked find now jobs).1 := by
  induction jobs generalizing s with
  | nil => exact .refl s
  | cons job rest ih =>
      have first : s.Turned o (s.submitLocked insertSequenced find job now).1 :=
        turned_submitLocked turned_insertSequenced (starts job List.mem_cons_self)
      exact first.trans (ih _ (fun other member => starts other (List.mem_cons_of_mem _ member)))

theorem turned_addManyAt (cron : Cron) (find : Find) (queue : QueueName)
    (s : InMemoryJobQueueState) (specs : List (JobSpec × JobId)) (reads : o.reads now)
    : s.Turned o (s.addManyAt cron find queue specs now).1 := by
  unfold addManyAt
  split
  · exact .refl s
  · refine turned_submitAllLocked find s ?_
    intro job member
    obtain ⟨spec, _, rfl⟩ := List.mem_map.mp member
    exact starts_new reads

-----------------------------------------------------------------------------------------
-- Flows
-----------------------------------------------------------------------------------------

@[simp] theorem keepNext_state (d : FlowDeduplication) (submittedParent : Bool)
    (deduplicationId : String) (child existing : Job)
    : (d.keepNext submittedParent deduplicationId child existing).state = d.state := rfl

/-- The deduplication loop only writes expiry times and candidates. -/
theorem lives_addChild (find : Find) (now : DateTime) (submittedParent : Bool) (duplicated : Finset JobId)
    (d : FlowDeduplication) (child : Job)
    : (d.addChild find now submittedParent duplicated child).1.state.lives = d.state.lives := by
  unfold FlowDeduplication.addChild
  split
  · rfl
  · split
    · rfl
    · split
      · next existing _ =>
          split
          · have stored := storeDeduplicatedNextLocked_lives d.state child existing
            split
            · next outcome =>
                rw [outcome] at stored
                exact stored
            · next outcome =>
                rw [outcome] at stored
                exact stored
          · simp
      · split <;> rfl

theorem lives_addChildren (find : Find) (now : DateTime) (submittedParent : Bool) (duplicated : Finset JobId)
    (d : FlowDeduplication) (children : List Job)
    : (d.addChildren find now submittedParent duplicated children).1.state.lives
      = d.state.lives := by
  induction children generalizing d with
  | nil => rfl
  | cons child rest ih =>
      have first := lives_addChild find now submittedParent duplicated d child
      unfold FlowDeduplication.addChildren
      split
      · next outcome =>
          rw [outcome] at first
          exact first
      · next outcome =>
          rw [outcome] at first
          rw [ih, first]

/-- One stored child: only an inserted record turns. -/
theorem turned_storeFlowChild (parentId : JobId) (now : DateTime) (owner : JobId → Option Job)
    (duplicated : Finset JobId) (s : InMemoryJobQueueState) {child : Job} (starts : child.Starts o)
    : s.Turned o (storeFlowChild parentId now owner duplicated s child).1 := by
  unfold storeFlowChild
  split
  · exact .of_eq (emitDeduplicatedEventsLocked_lives _ _ _ _)
  · split
    · split
      · exact .refl s
      · next existing found =>
          refine .of_eq ?_
          simp only [emitDuplicatedEventLocked_lives, recordTerminalChildDependencyLocked_lives]
          refine lives_setJob_same existing ?_ rfl
          rw [JobMap.get_id found]
          exact found
    · unfold Turned
      rw [lives_insertSequenced]
      exact turns_admit_over starts

theorem turned_storeFlowChildren (parentId : JobId) (now : DateTime)
    (owner : JobId → Option Job) (duplicated : Finset JobId) (s : InMemoryJobQueueState)
    {children : List Job} (starts : ∀ child ∈ children, child.Starts o)
    : s.Turned o (storeFlowChildren parentId now owner duplicated s children).1 := by
  induction children generalizing s with
  | nil => exact .refl s
  | cons child rest ih =>
      have first := turned_storeFlowChild parentId now owner duplicated s
        (starts child List.mem_cons_self)
      exact first.trans (ih _ (fun other member => starts other (List.mem_cons_of_mem _ member)))

theorem turned_releaseUnlessNext (s : InMemoryJobQueueState) (d : FlowDeduplication)
    (parentId : JobId) (reads : o.reads now)
    : s.Turned o (s.releaseUnlessNext d parentId now) := by
  unfold releaseUnlessNext
  split
  · exact turned_releaseParentIfReadyLocked s parentId reads
  · exact .refl s

theorem turned_attachToExistingParent (s : InMemoryJobQueueState) (existingParent : Job)
    {children : List Job} (duplicated : Finset JobId) (d : FlowDeduplication)
    (starts : ∀ child ∈ children, child.Starts o) (reads : o.reads now)
    : s.Turned o (s.attachToExistingParent existingParent children duplicated d now).1 := by
  unfold attachToExistingParent
  simp only
  split
  · exact (turned_storeFlowChildren _ _ _ _ s starts).trans (turned_releaseUnlessNext _ d _ reads)
  · next parent found =>
      generalize listed_eq : s.setJob _ = listed
      have same : listed.lives = s.lives := by
        rw [← listed_eq]
        refine lives_setJob_same parent ?_ rfl
        rw [JobMap.get_id found]
        exact found
      have stored := turned_storeFlowChildren existingParent.id now (d.owner false) duplicated
        listed starts
      exact (stored.ahead same).trans (turned_releaseUnlessNext _ d _ reads)

theorem turned_addFlowForExistingParentLocked (find : Find) (s : InMemoryJobQueueState)
    (existingParent : Job) {children : List Job} (starts : ∀ child ∈ children, child.Starts o)
    (reads : o.reads now)
    : s.Turned o (s.addFlowForExistingParentLocked find existingParent children now).1 := by
  unfold addFlowForExistingParentLocked
  simp only
  have told := emitDuplicatedEventLocked_lives s existingParent now
  generalize s.emitDuplicatedEventLocked existingParent now = emitted at told ⊢
  split
  · exact .of_eq told
  · next duplicated _ =>
      have same := lives_addChildren find now false duplicated
        { state := emitted, childIds := [], flowDeduplicationIds := ∅ } children
      split
      · next outcome =>
          rw [outcome] at same
          exact .of_eq (same.trans told)
      · next d outcome =>
          rw [outcome] at same
          split
          · exact .of_eq (same.trans told)
          · have attached := turned_attachToExistingParent d.state existingParent duplicated d
              starts reads
            exact attached.ahead (same.trans told)

theorem turned_coalesceFlow (s : InMemoryJobQueueState) (candidate : JobFlow) (existing : Job)
    (now : DateTime)
    : s.Turned o (s.coalesceFlow candidate existing now).1 := by
  have stored := storeDeduplicatedNextFlowLocked_lives s candidate existing
  unfold coalesceFlow
  split
  · next outcome =>
      rw [outcome] at stored
      exact .of_eq ((emitDeduplicatedEventsLocked_lives _ _ _ _).trans stored)
  · next outcome =>
      rw [outcome] at stored
      exact .of_eq (by simpa using stored)

theorem starts_flowParent (d : FlowDeduplication) {parent : Job} (starts : parent.Starts o)
    (reads : o.reads now)
    : (flowParent d parent now).Starts o where
  fresh := ⟨starts.fresh.1, starts.fresh.2, starts.fresh.3⟩
  schedule := by
    unfold flowParent
    simp only
    split
    · exact (due_stateAfterDependencies _ reads).imp_right Or.inl
    · exact starts.schedule

theorem turned_insertFlow (s : InMemoryJobQueueState) {parent : Job} {children : List Job}
    (duplicated : Finset JobId) (d : FlowDeduplication) (absent : s.jobs.get parent.id = none)
    (starts : parent.Starts o) (childrenStart : ∀ child ∈ children, child.Starts o)
    (reads : o.reads now)
    : s.Turned o (s.insertFlow parent children duplicated d now).1 := by
  have inserted : s.Turned o (s.insertSequenced parent now).1 :=
    turned_insertSequenced absent starts
  unfold insertFlow
  simp only
  generalize s.insertSequenced parent now = outcome at inserted ⊢
  obtain ⟨t, stored⟩ := outcome
  exact (inserted.trans (turned_storeFlowChildren _ _ _ _ t childrenStart)).trans
    (turned_releaseUnlessNext _ d stored.id reads)

theorem turned_addNewFlowLocked (find : Find) (s : InMemoryJobQueueState) {parent : Job}
    {children : List Job} (absent : s.jobs.get parent.id = none) (starts : parent.Starts o)
    (childrenStart : ∀ child ∈ children, child.Starts o) (reads : o.reads now)
    : s.Turned o (s.addNewFlowLocked find parent children now).1 := by
  unfold addNewFlowLocked
  split
  · exact .refl s
  · next duplicated _ =>
      simp only
      generalize start_eq : ({ state := s, childIds := parent.childIds, flowDeduplicationIds := _ } : FlowDeduplication) = start
      have same : (start.addChildren find now true duplicated children).1.state.lives = s.lives := by
        rw [lives_addChildren, ← start_eq]
      split
      · next outcome =>
          rw [outcome] at same
          exact .of_eq same
      · next d outcome =>
          rw [outcome] at same
          split
          · exact .of_eq same
          · have free : d.state.jobs.get (flowParent d parent now).id = none :=
              absent_of_lives same absent
            have inserted := turned_insertFlow d.state duplicated d free
              (starts_flowParent d starts reads) childrenStart reads
            exact inserted.ahead same

theorem turned_addFlowLocked (find : Find) (s : InMemoryJobQueueState) {parent : Job}
    {children : List Job} (starts : parent.Starts o)
    (childrenStart : ∀ child ∈ children, child.Starts o) (reads : o.reads now)
    : s.Turned o (s.addFlowLocked find parent children now).1 := by
  unfold addFlowLocked
  split
  · exact turned_addFlowForExistingParentLocked find s _ childrenStart reads
  · next absent =>
      split
      · exact turned_coalesceFlow s _ _ now
      · exact turned_addNewFlowLocked find s absent starts childrenStart reads

theorem starts_flowChildJobs {queue : QueueName} {children : List (JobSpec × JobId)}
    (reads : o.reads now)
    : ∀ child ∈ flowChildJobs queue parentId children now, child.Starts o := by
  intro child member
  obtain ⟨spec, _, rfl⟩ := List.mem_map.mp member
  have starts : (jobOfSpec queue now spec).Starts o := starts_new reads
  exact starts.of_same rfl

theorem starts_flowParentJob (queue : QueueName) (parent : JobSpec × JobId)
    (children : List Job) (reads : o.reads now)
    : (flowParentJob queue parent children now).Starts o := by
  have starts : (jobOfSpec queue now parent).Starts o := starts_new reads
  unfold flowParentJob
  simp only
  generalize jobOfSpec queue now parent = job at starts ⊢
  refine ⟨⟨starts.fresh.1, starts.fresh.2, starts.fresh.3⟩, ?_⟩
  simp only
  split
  · exact (due_stateAfterDependencies _ reads).imp_right Or.inl
  · exact .inr (.inr rfl)

theorem turned_addFlowAt (cron : Cron) (find : Find) (queue : QueueName)
    (s : InMemoryJobQueueState) (parent : JobSpec × JobId) (children : List (JobSpec × JobId))
    (reads : o.reads now)
    : s.Turned o (s.addFlowAt cron find queue parent children now).1 := by
  have childrenStart
      : ∀ child ∈ flowChildJobs queue (jobOfSpec queue now parent).id children now,
          child.Starts o :=
    starts_flowChildJobs reads
  unfold addFlowAt
  split
  · exact .refl s
  · simp only
    generalize flowChildJobs queue (jobOfSpec queue now parent).id children now = childJobs at childrenStart ⊢
    have starts : (flowParentJob queue parent childJobs now).Starts o := starts_flowParentJob queue parent childJobs reads
    generalize flowParentJob queue parent childJobs now = parentJob at starts ⊢
    split
    · exact .refl s
    · exact turned_addFlowLocked find s starts childrenStart reads

/-- A fan-out parks its parent, stores the children and may release the parent at once. -/
theorem turned_fanOut (s : InMemoryJobQueueState) {parent : Job} {children : List Job}
    (duplicated : Finset JobId) (d : FlowDeduplication)
    (found : s.jobs.get parent.id = some parent) (active : parent.state = .active)
    (starts : ∀ child ∈ children, child.Starts o) (reads : o.reads now)
    : s.Turned o (s.fanOut parent children duplicated d now).1 := by
  have alive : parent.state.isTerminal = false := by
    rw [active]
    rfl
  have cleared := cleared_unleasedParent parent .waitingChildren none alive
  unfold fanOut
  simp only
  refine Turned.trans ?_ (turned_releaseUnlessNext _ d _ reads)
  refine Turned.shown ?_ (emitEventLocked_lives _ _ _ _ _ _)
  refine Turned.trans (Turned.single [] ?_) (turned_storeFlowChildren _ now _ duplicated _ starts)
  rw [lives_setJob]
  exact .shelved (lives_of_get found) alive
    ⟨cleared.lease, cleared.finishedAt, cleared.returnValue, cleared.order⟩ (.inr rfl)

theorem turned_addFlowChildrenLocked (find : Find) (s : InMemoryJobQueueState)
    (parentId : JobId) (lockToken : JobLockToken) {children : List Job}
    (starts : ∀ child ∈ children, child.Starts o) (reads : o.reads now)
    : s.Turned o (s.addFlowChildrenLocked find parentId lockToken children now).1 := by
  unfold addFlowChildrenLocked
  split
  · exact .refl s
  · next accepted =>
      obtain ⟨found, active, _⟩ := requireFanOutParent_ok accepted
      split
      · exact .refl s
      · next duplicated _ =>
          simp only
          have same := lives_addChildren find now false duplicated
            { state := s, childIds := [], flowDeduplicationIds := ∅ } children
          split
          · next outcome =>
              rw [outcome] at same
              exact .of_eq same
          · next d outcome =>
              rw [outcome] at same
              split
              · exact .of_eq same
              · split
                · exact .of_eq same
                · next parent stored =>
                    obtain rfl := JobMap.get_id stored
                    have life : d.state.lives.life parent.id = s.lives.life parent.id := by
                      rw [same]
                    rw [lives_of_get stored, lives_of_get found, Option.some_inj] at life
                    have stillActive : parent.state = .active :=
                      (congrArg Life.state life).trans active
                    exact (turned_fanOut d.state duplicated d stored stillActive starts reads).ahead
                      same

theorem turned_addFlowChildrenAt (cron : Cron) (find : Find) (queue : QueueName)
    (s : InMemoryJobQueueState) (parentId : JobId) (lockToken : JobLockToken)
    (children : List (JobSpec × JobId)) (reads : o.reads now)
    : s.Turned o (s.addFlowChildrenAt cron find queue parentId lockToken children now).1 := by
  unfold addFlowChildrenAt
  split
  · exact .refl s
  · split
    · exact .refl s
    · simp only
      split
      · exact .refl s
      · exact turned_addFlowChildrenLocked find s parentId lockToken (starts_flowChildJobs reads)
          reads

end InMemoryJobQueueState

end Lane
