import Lane.Stock.Stocked

/-! Submissions take in records with the options of their specs and no others. -/

namespace Lane

namespace InMemoryJobQueueState

namespace Stores

variable {P : Contents → Prop} {s : InMemoryJobQueueState} {job existing : Job} {now : DateTime}
  {find : Find}

-----------------------------------------------------------------------------------------
-- Single jobs and batches
-----------------------------------------------------------------------------------------

theorem insertUnlessRepeated (stores : s.Stores P) (contents : P job.contents) (find : Find)
    (now : DateTime)
    : (s.insertUnlessRepeated InMemoryJobQueueState.insertCreated find job now).1.Stores P := by
  unfold InMemoryJobQueueState.insertUnlessRepeated
  split
  · exact stores
  · exact stores.insertCreated contents now

theorem replaceDelayedOwner (stores : s.Stores P) (job existing : Job) (now : DateTime)
    : (s.replaceDelayedOwner job existing now).Stores P := by
  have removed := stores.removeJobRecordLocked existing.id
  unfold InMemoryJobQueueState.replaceDelayedOwner
  split
  · next same => rw [same] at removed; exact removed
  · next same =>
      rw [same] at removed
      refine of_tables ?_ (emitReplacedDeduplicatedOwnerEventsLocked_tables _ _ _ _)
      exact removed.of_tables (emitRemovedEventLocked_tables _ _ _)

theorem coalesceDuplicate (stores : s.Stores P) (contents : P job.contents) (existing : Job)
    (now : DateTime)
    : (s.coalesceDuplicate job existing now).1.Stores P := by
  have kept := (stores.storeDeduplicatedNextLocked contents existing)
    |>.extendDeduplicationExpirationLocked job existing.id now
  unfold InMemoryJobQueueState.coalesceDuplicate
  simp only
  split
  · exact kept.of_tables (emitDeduplicatedEventsLocked_tables _ _ _ _)
  · exact kept

theorem submitLocked (stores : s.Stores P) (contents : P job.contents) (find : Find)
    (now : DateTime)
    : (s.submitLocked InMemoryJobQueueState.insertCreated find job now).1.Stores P := by
  unfold InMemoryJobQueueState.submitLocked
  split
  · exact stores
  · split
    · exact stores.insertUnlessRepeated contents find now
    · next existing _ =>
        split
        · refine insertUnlessRepeated (stores.replaceDelayedOwner _ existing now) ?_ find now
          unfold preserveReplacementDeduplicationExpiration
          simp only
          split <;> exact contents
        · exact stores.coalesceDuplicate contents existing now

/-- The loop of a batch, by induction on the jobs. -/
theorem submitAllLocked (stores : s.Stores P) (find : Find) (now : DateTime) (jobs : List Job)
    (contents : ∀ job ∈ jobs, P job.contents)
    : (s.submitAllLocked find now jobs).1.Stores P := by
  induction jobs generalizing s with
  | nil => exact stores
  | cons job rest ih =>
      have first := stores.submitLocked (contents job List.mem_cons_self) find now
      rw [← insertSequenced_eq_insertCreated] at first
      exact ih first (fun later within => contents later (.tail _ within))

-----------------------------------------------------------------------------------------
-- Children of a flow submission
-----------------------------------------------------------------------------------------

theorem addChild {d : FlowDeduplication} (stores : d.state.Stores P) {child : Job}
    (contents : P child.contents) (find : Find) (now : DateTime) (submittedParent : Bool)
    (duplicated : Finset JobId)
    : (d.addChild find now submittedParent duplicated child).1.state.Stores P := by
  unfold FlowDeduplication.addChild
  split
  · exact stores
  · split
    · exact stores
    · split
      · next existing _ =>
          split
          · have stored := stores.storeDeduplicatedNextLocked contents existing
            split
            · next same => rw [same] at stored; exact stored
            · next same => rw [same] at stored; exact stored
          · exact stores.extendDeduplicationExpirationLocked child existing.id now
      · split <;> exact stores

/-- The deduplication loop, by induction on the children. -/
theorem addChildren {d : FlowDeduplication} (stores : d.state.Stores P) (find : Find)
    (now : DateTime) (submittedParent : Bool) (duplicated : Finset JobId) (children : List Job)
    (contents : ∀ child ∈ children, P child.contents)
    : (d.addChildren find now submittedParent duplicated children).1.state.Stores P := by
  induction children generalizing d with
  | nil => exact stores
  | cons child rest ih =>
      have first := stores.addChild (contents child List.mem_cons_self) find now submittedParent
        duplicated
      unfold FlowDeduplication.addChildren
      split
      · next same => rw [same] at first; exact first
      · next same =>
          rw [same] at first
          exact ih first (fun later within => contents later (.tail _ within))

theorem storeFlowChild (stores : s.Stores P) {child : Job} (contents : P child.contents)
    (parentId : JobId) (now : DateTime) (owner : JobId → Option Job) (duplicated : Finset JobId)
    : (s.storeFlowChild parentId now owner duplicated child).1.Stores P := by
  unfold InMemoryJobQueueState.storeFlowChild
  split
  · exact stores.of_tables (emitDeduplicatedEventsLocked_tables _ _ _ _)
  · split
    · split
      · exact stores
      · next existing found =>
          simp only
          refine of_tables ?_ (emitDuplicatedEventLocked_tables _ _ _)
          refine of_tables ?_ (recordTerminalChildDependencyLocked_tables _ _ _)
          exact stores.update found rfl
    · exact stores.insertSequenced contents now

/-- The children are stored one after the other, by induction on them. -/
theorem storeFlowChildren (stores : s.Stores P) (parentId : JobId) (now : DateTime)
    (owner : JobId → Option Job) (duplicated : Finset JobId) (children : List Job)
    (contents : ∀ child ∈ children, P child.contents)
    : (InMemoryJobQueueState.storeFlowChildren parentId now owner duplicated s children).1.Stores
        P := by
  induction children generalizing s with
  | nil => exact stores
  | cons child rest ih =>
      have first := stores.storeFlowChild (contents child List.mem_cons_self) parentId now owner
        duplicated
      exact ih first (fun later within => contents later (.tail _ within))

theorem releaseUnlessNext (stores : s.Stores P) (d : FlowDeduplication) (parentId : JobId)
    (now : DateTime)
    : (s.releaseUnlessNext d parentId now).Stores P := by
  unfold InMemoryJobQueueState.releaseUnlessNext
  split
  · exact stores.releaseParentIfReadyLocked parentId now
  · exact stores

-----------------------------------------------------------------------------------------
-- Flows
-----------------------------------------------------------------------------------------

theorem attachToExistingParent (stores : s.Stores P) (existingParent : Job)
    (children : List Job) (contents : ∀ child ∈ children, P child.contents)
    (duplicated : Finset JobId) (d : FlowDeduplication) (now : DateTime)
    : (s.attachToExistingParent existingParent children duplicated d now).1.Stores P := by
  unfold InMemoryJobQueueState.attachToExistingParent
  simp only
  refine releaseUnlessNext (storeFlowChildren ?_ _ _ _ _ _ contents) _ _ _
  split
  · exact stores
  · next parent found => exact stores.update found rfl

theorem addFlowForExistingParentLocked (stores : s.Stores P) (find : Find)
    (existingParent : Job) (children : List Job) (contents : ∀ child ∈ children, P child.contents)
    (now : DateTime)
    : (s.addFlowForExistingParentLocked find existingParent children now).1.Stores P := by
  have shown := stores.of_tables (emitDuplicatedEventLocked_tables s existingParent now)
  unfold InMemoryJobQueueState.addFlowForExistingParentLocked
  simp only
  split
  · exact shown
  · next duplicated _ =>
      have joined := addChildren
        (d := {
          state := s.emitDuplicatedEventLocked existingParent now
          childIds := []
          flowDeduplicationIds := ∅ })
        shown find now false duplicated children contents
      split
      · next same => rw [same] at joined; exact joined
      · next d same =>
          rw [same] at joined
          split
          · exact joined
          · exact joined.attachToExistingParent existingParent children contents duplicated d now

theorem coalesceFlow (stores : s.Stores P) {candidate : JobFlow}
    (parent : P candidate.parent.contents) (children : ∀ child ∈ candidate.children, P child.contents)
    (existing : Job) (now : DateTime)
    : (s.coalesceFlow candidate existing now).1.Stores P := by
  have stored := stores.storeDeduplicatedNextFlowLocked parent children existing
  unfold InMemoryJobQueueState.coalesceFlow
  split
  · next same =>
      rw [same] at stored
      exact stored.of_tables (emitDeduplicatedEventsLocked_tables _ _ _ _)
  · next same =>
      rw [same] at stored
      refine of_tables ?_ (emitDeduplicatedEventsLocked_tables _ _ _ _)
      exact stored.extendDeduplicationExpirationLocked _ _ _

theorem insertFlow (stores : s.Stores P) {parent : Job} (contents : P parent.contents)
    (children : List Job) (each : ∀ child ∈ children, P child.contents)
    (duplicated : Finset JobId) (d : FlowDeduplication) (now : DateTime)
    : (s.insertFlow parent children duplicated d now).1.Stores P := by
  have inserted := stores.insertSequenced contents now
  unfold InMemoryJobQueueState.insertFlow
  exact (inserted.storeFlowChildren _ _ _ _ children each).releaseUnlessNext _ _ _

theorem addNewFlowLocked (stores : s.Stores P) (find : Find) {parent : Job}
    (contents : P parent.contents) (children : List Job) (each : ∀ child ∈ children, P child.contents)
    (now : DateTime)
    : (s.addNewFlowLocked find parent children now).1.Stores P := by
  unfold InMemoryJobQueueState.addNewFlowLocked
  split
  · exact stores
  · next duplicated _ =>
      have joined := addChildren
        (d := {
          state := s
          childIds := parent.childIds
          flowDeduplicationIds := (activeDeduplicationId parent now).elim ∅ (fun id => {id}) })
        stores find now true duplicated children each
      simp only
      split
      · next same => rw [same] at joined; exact joined
      · next d same =>
          rw [same] at joined
          split
          · exact joined
          · have parentOptions : P (flowParent d parent now).contents := contents
            exact joined.insertFlow parentOptions children each duplicated d now

theorem addFlowLocked (stores : s.Stores P) (find : Find) {parent : Job}
    (contents : P parent.contents) (children : List Job) (each : ∀ child ∈ children, P child.contents)
    (now : DateTime)
    : (s.addFlowLocked find parent children now).1.Stores P := by
  unfold InMemoryJobQueueState.addFlowLocked
  split
  · exact stores.addFlowForExistingParentLocked find _ children each now
  · split
    · exact stores.coalesceFlow contents each _ now
    · exact stores.addNewFlowLocked find contents children each now

theorem fanOut (stores : s.Stores P) {parent : Job} (contents : P parent.contents)
    (children : List Job) (each : ∀ child ∈ children, P child.contents)
    (duplicated : Finset JobId) (d : FlowDeduplication) (now : DateTime)
    : (s.fanOut parent children duplicated d now).1.Stores P := by
  unfold InMemoryJobQueueState.fanOut
  simp only
  refine releaseUnlessNext ?_ _ _ _
  refine of_tables ?_ (emitEventLocked_tables _ _ _ _ _ _)
  refine storeFlowChildren (stores.setJob ?_) _ _ _ _ children each
  exact contents

theorem addFlowChildrenLocked (stores : s.Stores P) (find : Find) (parentId : JobId)
    (lockToken : JobLockToken) (children : List Job) (each : ∀ child ∈ children, P child.contents)
    (now : DateTime)
    : (s.addFlowChildrenLocked find parentId lockToken children now).1.Stores P := by
  unfold InMemoryJobQueueState.addFlowChildrenLocked
  split
  · exact stores
  · split
    · exact stores
    · next duplicated _ =>
        have joined := addChildren
          (d := { state := s, childIds := [], flowDeduplicationIds := ∅ }) stores find now false
          duplicated children each
        simp only
        split
        · next same => rw [same] at joined; exact joined
        · next d same =>
            rw [same] at joined
            split
            · exact joined
            · split
              · exact joined
              · next parent found =>
                  exact joined.fanOut (joined.retained found) children each duplicated d now

-----------------------------------------------------------------------------------------
-- Validated specs
-----------------------------------------------------------------------------------------

/-- The specs of a validated batch have what validated options have. -/
theorem contents_of_validateSpecsAt {cron : Cron} {specs : List (JobSpec × JobId)}
    (accepts
      : ∀ entry ∈ specs,
          validateJobOptionsAt cron entry.1.options now = .ok () → P entry.1.options.contents)
    (valid : validateSpecsAt cron now specs = .ok ())
    : ∀ entry ∈ specs, P entry.1.options.contents := by
  intro entry within
  exact accepts entry within ((validateSpecsAt_ok_iff specs).mp valid entry within)

theorem addAt (stores : s.Stores P) {cron : Cron} {options : JobOptions}
    (accepts : validateJobOptionsAt cron options now = .ok () → P options.contents)
    (find : Find) (queue : QueueName) (name : String) (payload : Value) (uuid : JobId)
    : (s.addAt cron find queue name payload options now uuid).1.Stores P := by
  unfold InMemoryJobQueueState.addAt
  split
  · exact stores
  · next valid =>
      have contents : P (Job.new queue name payload options now uuid).contents := accepts valid
      exact stores.submitLocked contents find now

theorem addManyAt (stores : s.Stores P) {cron : Cron} {specs : List (JobSpec × JobId)}
    (accepts
      : ∀ entry ∈ specs,
          validateJobOptionsAt cron entry.1.options now = .ok () → P entry.1.options.contents)
    (find : Find) (queue : QueueName)
    : (s.addManyAt cron find queue specs now).1.Stores P := by
  unfold InMemoryJobQueueState.addManyAt
  split
  · exact stores
  · next valid =>
      have each := contents_of_validateSpecsAt accepts valid
      refine stores.submitAllLocked find now _ ?_
      intro job within
      obtain ⟨entry, member, rfl⟩ := List.mem_map.mp within
      exact each entry member

/-- The records of submitted children start with the options of their specs. -/
theorem contents_flowChildJobs {queue : QueueName} {parentId : JobId}
    {children : List (JobSpec × JobId)} (each : ∀ entry ∈ children, P entry.1.options.contents)
    : ∀ child ∈ flowChildJobs queue parentId children now, P child.contents := by
  intro child within
  obtain ⟨entry, member, rfl⟩ := List.mem_map.mp within
  exact each entry member

theorem addFlowAt (stores : s.Stores P) {cron : Cron} {parent : JobSpec × JobId}
    {children : List (JobSpec × JobId)}
    (accepts
      : ∀ entry ∈ parent :: children,
          validateJobOptionsAt cron entry.1.options now = .ok () → P entry.1.options.contents)
    (find : Find) (queue : QueueName)
    : (s.addFlowAt cron find queue parent children now).1.Stores P := by
  unfold InMemoryJobQueueState.addFlowAt
  split
  · exact stores
  · next valid =>
      have each := contents_of_validateSpecsAt accepts valid
      simp only
      split
      · exact stores
      · refine stores.addFlowLocked find ?_ _ ?_ now
        · exact each parent List.mem_cons_self
        · exact contents_flowChildJobs fun entry member => each entry (.tail _ member)

theorem addFlowChildrenAt (stores : s.Stores P) {cron : Cron}
    {children : List (JobSpec × JobId)}
    (accepts
      : ∀ entry ∈ children,
          validateJobOptionsAt cron entry.1.options now = .ok () → P entry.1.options.contents)
    (find : Find) (queue : QueueName) (parentId : JobId) (lockToken : JobLockToken)
    : (s.addFlowChildrenAt cron find queue parentId lockToken children now).1.Stores P := by
  unfold InMemoryJobQueueState.addFlowChildrenAt
  split
  · exact stores
  · split
    · exact stores
    · next valid =>
        simp only
        split
        · exact stores
        · refine stores.addFlowChildrenLocked find parentId lockToken _ ?_ now
          exact contents_flowChildJobs (contents_of_validateSpecsAt accepts valid)

end Stores

end InMemoryJobQueueState

end Lane
