import Lane.Board.Flows
import Lane.Filing.Shelf

/-! The filings of submissions: single jobs, batches, flows and dynamic fan-outs. -/

namespace Lane

namespace InMemoryJobQueueState

variable {o : Source} {s t : InMemoryJobQueueState} {job old : Job} {id parentId childId : JobId}
  {now : DateTime} {find : Find} {children : List Job} {duplicated : Finset JobId}

-----------------------------------------------------------------------------------------
-- Flow parents
-----------------------------------------------------------------------------------------

theorem shelf_scheduleParent (found : s.jobs.get id = some job) (deferredFailure : Option String)
    (prev : JobState) (now : DateTime)
    : (s.scheduleParent job deferredFailure prev now).1.shelf = s.shelf := by
  unfold scheduleParent
  simp only [emitEventLocked_shelf]
  split
  · exact shelf_update (s := s.nextWaitingSequence.1) found rfl
  · exact shelf_update found rfl

theorem shelf_deferParentFailureAfterChildFailureLocked (s : InMemoryJobQueueState)
    (parentId childId : JobId) (now : DateTime)
    : (s.deferParentFailureAfterChildFailureLocked parentId childId now).1.shelf = s.shelf := by
  unfold deferParentFailureAfterChildFailureLocked
  split
  · rfl
  · next found =>
      split
      · rfl
      · exact shelf_scheduleParent found _ _ now

theorem shelf_continueParentAfterChildFailureLocked (s : InMemoryJobQueueState)
    (parentId : JobId) (now : DateTime)
    : (s.continueParentAfterChildFailureLocked parentId now).1.shelf = s.shelf := by
  unfold continueParentAfterChildFailureLocked
  split
  · rfl
  · next found =>
      split
      · rfl
      · exact shelf_scheduleParent found _ _ now

theorem files_failWaitingParentLocked (s : InMemoryJobQueueState) (parentId : JobId)
    (reason : String) (now : DateTime)
    : Filings o s.shelf (s.failWaitingParentLocked parentId reason now).1.shelf := by
  unfold failWaitingParentLocked
  split
  · exact .refl
  · next parent found =>
      split
      · exact .refl
      · have written : (s.setJob (failedParent parent reason now)).shelf = s.shelf :=
          shelf_update found rfl
        simp only [emitEventLocked_shelf]
        rw [← written]
        exact files_removalOrRetention _ _ _ _ _ now

theorem files_releaseParentIfReadyLocked (s : InMemoryJobQueueState) (parentId : JobId)
    (now : DateTime)
    : Filings o s.shelf (s.releaseParentIfReadyLocked parentId now).1.shelf := by
  unfold releaseParentIfReadyLocked
  split
  · exact .refl
  · next found =>
      split
      · exact .refl
      · split
        · exact .refl
        · exact .of_eq (shelf_deferParentFailureAfterChildFailureLocked s _ _ now)
        · exact files_failWaitingParentLocked s _ _ now
        · exact .of_eq (shelf_scheduleParent found _ _ now)

-----------------------------------------------------------------------------------------
-- Single jobs and batches
-----------------------------------------------------------------------------------------

theorem files_replaceDelayedOwner (s : InMemoryJobQueueState) (job existing : Job)
    (now : DateTime)
    : Filings o s.shelf (s.replaceDelayedOwner job existing now).shelf := by
  have removed := files_removeJobRecordLocked (o := o) s existing.id
  unfold replaceDelayedOwner
  split
  · next outcome =>
      rw [outcome] at removed
      exact removed
  · next outcome =>
      rw [outcome] at removed
      simpa using removed

theorem files_insertUnlessRepeated (enters : o.enters job.id)
    : Filings o s.shelf (s.insertUnlessRepeated insertCreated find job now).1.shelf := by
  unfold insertUnlessRepeated
  split
  · exact .refl
  · exact files_insertCreated enters

theorem files_submitLocked (enters : s.jobs.get job.id = none → o.enters job.id)
    : Filings o s.shelf (s.submitLocked insertCreated find job now).1.shelf := by
  unfold submitLocked
  split
  · exact .refl
  · next absent =>
      split
      · exact files_insertUnlessRepeated (enters absent)
      · next existing _ =>
          split
          · have sameId : (preserveReplacementDeduplicationExpiration job existing).id = job.id := by
              unfold preserveReplacementDeduplicationExpiration
              simp only
              split <;> rfl
            simp only
            generalize preserveReplacementDeduplicationExpiration job existing = preserved at sameId ⊢
            refine (files_replaceDelayedOwner s preserved existing now).trans ?_
            refine files_insertUnlessRepeated ?_
            rw [sameId]
            exact enters absent
          · refine .of_eq ?_
            unfold coalesceDuplicate
            simp only
            split <;> simp

theorem files_addAt (cron : Cron) (queue : QueueName) (name : String) (payload : Value)
    (options : JobOptions) (uuid : JobId)
    (enters : ∀ id, s.jobs.get id = none → o.enters id)
    : Filings o s.shelf (s.addAt cron find queue name payload options now uuid).1.shelf := by
  unfold addAt
  split
  · exact .refl
  · exact files_submitLocked (enters _)

/-- A retained job with children is still retained after a submission. -/
theorem retained_of_submits {after : Board} {card : Card} (submits : s.Submits job now after)
    (found : s.board.cards id = some card) (listing : card.childIds ≠ [])
    : ∃ kept, after.cards id = some kept ∧ kept.childIds = card.childIds := by
  cases submits with
  | answered => exact ⟨card, found, rfl⟩
  | @admitted replaced stored _ _ admits =>
      have apart : ¬ replaced = some id := by
        intro same
        obtain ⟨old, shown, _, _, childless, _⟩ := admits.replacedFree same
        rw [found] at shown
        rw [Option.some.inj shown] at listing
        exact listing childless
      have other : id ≠ stored.id := by
        rintro rfl
        rcases admits.absent with absent | same
        · rw [absent] at found
          cases found
        · exact apart same
      refine ⟨card, ?_, rfl⟩
      unfold Board.enter
      rw [Board.put_cards_ne other, Board.without_cards_of_notMem (by simpa using apart)]
      exact found
  | coalesced _ _ coalesces =>
      obtain ⟨_, shown, same⟩ := coalesces.retimes.card_after found
      have kept := congrArg Card.childIds same
      exact ⟨_, shown, kept⟩

/-- A batch is submitted job by job, by induction on the jobs. An id of the batch only enters
again after a childless owner with this id was replaced.
-/
theorem files_submitAllLocked {jobs : List Job}
    (submitted : ∀ job ∈ jobs, Submitted job)
    (enters : ∀ id, (∀ card, s.board.cards id = some card → card.childIds = []) → o.enters id)
    : Filings o s.shelf (s.submitAllLocked find now jobs).1.shelf := by
  induction jobs generalizing s with
  | nil => exact .refl
  | cons job rest ih =>
      have submits
          : s.Submits job now (s.submitLocked insertSequenced find job now).1.board :=
        submits_submitLocked (fun t stored => (board_insertSequenced t stored now).1)
          (submitted job List.mem_cons_self)
      have first : Filings o s.shelf (s.submitLocked insertSequenced find job now).1.shelf := by
        rw [insertSequenced_eq_insertCreated]
        refine files_submitLocked (fun absent => enters job.id ?_)
        intro card found
        rw [board_cards_none.mpr absent] at found
        cases found
      refine first.trans (ih (fun other member => submitted other (List.mem_cons_of_mem _ member)) ?_)
      intro id childless
      refine enters id (fun card found => ?_)
      by_contra listing
      obtain ⟨kept, shown, same⟩ := retained_of_submits submits found listing
      exact listing (same ▸ childless kept shown)

theorem files_addManyAt (cron : Cron) (queue : QueueName) (specs : List (JobSpec × JobId))
    (enters : ∀ id, (∀ card, s.board.cards id = some card → card.childIds = []) → o.enters id)
    : Filings o s.shelf (s.addManyAt cron find queue specs now).1.shelf := by
  unfold addManyAt
  split
  · exact .refl
  · refine files_submitAllLocked ?_ enters
    intro job member
    obtain ⟨spec, _, rfl⟩ := List.mem_map.mp member
    exact submitted_new _ _ _ _ _ _

theorem files_upsertRepeat (cron : Cron) (queue : QueueName) (spec : JobSpec × JobId)
    (enters : ∀ id, (∀ card, s.board.cards id = some card → card.childIds = []) → o.enters id)
    : Filings o s.shelf (s.upsertRepeat cron find queue spec now).1.shelf := by
  unfold upsertRepeat
  split
  · exact .refl
  · split
    · exact .refl
    · simp only
      split
      · exact .refl
      · unfold upsertRepeatLocked
        simp only
        split
        · exact .refl
        · next repeatKey _ accepted =>
            obtain ⟨replaceable, freeId, _⟩ := requireUpsertable_ok accepted
            have entering : o.enters (jobOfSpec queue now spec).id := by
              refine enters _ (fun card found => ?_)
              obtain ⟨stored, known, rfl⟩ := board_cards_some found
              rcases requireFreeJobId_ok freeId with absent | same
              · rw [absent] at known
                cases known
              · obtain ⟨owner, isOwner, ownerId⟩ := Option.map_eq_some_iff.mp same
                have retained := (carries_of_find isOwner).1
                rw [ownerId, known] at retained
                obtain rfl := Option.some.inj retained
                rw [isOwner] at replaceable
                exact (requireReplaceable_ok replaceable).2.2
            generalize jobOfSpec queue now spec = job at entering ⊢
            refine Relation.ReflTransGen.trans ?_ (files_insertCreated entering)
            split
            · exact .refl
            · exact files_removeJobRecordLocked s _

-----------------------------------------------------------------------------------------
-- The deduplication loop over submitted children
-----------------------------------------------------------------------------------------

/-- The deduplication loop only writes expiry times and candidates. -/
theorem shelf_addChild (find : Find) (now : DateTime) (submittedParent : Bool)
    (duplicated : Finset JobId) (d : FlowDeduplication) (child : Job)
    : (d.addChild find now submittedParent duplicated child).1.state.shelf = d.state.shelf := by
  unfold FlowDeduplication.addChild
  split
  · rfl
  · split
    · rfl
    · split
      · next existing _ =>
          split
          · have stored := storeDeduplicatedNextLocked_shelf d.state child existing
            split
            · next outcome =>
                rw [outcome] at stored
                exact stored
            · next outcome =>
                rw [outcome] at stored
                exact stored
          · simp
      · split <;> rfl

theorem shelf_addChildren (find : Find) (now : DateTime) (submittedParent : Bool)
    (duplicated : Finset JobId) (d : FlowDeduplication) (children : List Job)
    : (d.addChildren find now submittedParent duplicated children).1.state.shelf
      = d.state.shelf := by
  induction children generalizing d with
  | nil => rfl
  | cons child rest ih =>
      have first := shelf_addChild find now submittedParent duplicated d child
      unfold FlowDeduplication.addChildren
      split
      · next outcome =>
          rw [outcome] at first
          exact first
      · next outcome =>
          rw [outcome] at first
          rw [ih, first]

/-- The later state retains the same records, up to their deduplication TTLs. -/
structure RetimedFrom (s t : InMemoryJobQueueState) : Prop where
  record
    : ∀ {id job},
        t.jobs.get id = some job
        → ∃ old,
            s.jobs.get id = some old
            ∧ job = { old with deduplicationExpiresAt := job.deduplicationExpiresAt }

theorem RetimedFrom.of_jobs (same : t.jobs = s.jobs) : s.RetimedFrom t where
  record := by
    intro id job found
    rw [same] at found
    exact ⟨job, found, rfl⟩

theorem RetimedFrom.trans {u : InMemoryJobQueueState} (first : s.RetimedFrom t)
    (second : t.RetimedFrom u)
    : s.RetimedFrom u where
  record := by
    intro id job found
    obtain ⟨middle, known, same⟩ := second.record found
    obtain ⟨old, before, alike⟩ := first.record known
    refine ⟨old, before, ?_⟩
    rw [same, alike]

theorem retimedFrom_setJob (found : s.jobs.get id = some old) (expiresAt : Option DateTime)
    : s.RetimedFrom (s.setJob { old with deduplicationExpiresAt := expiresAt }) where
  record := by
    intro other job known
    simp only [setJob, JobMap.get_insert] at known
    split at known
    · next same =>
        obtain rfl := Option.some.inj known
        refine ⟨old, ?_, rfl⟩
        rw [same, JobMap.get_id found]
        exact found
    · exact ⟨job, known, rfl⟩

theorem retimedFrom_storeDeduplicatedNextLocked (s : InMemoryJobQueueState)
    (candidate existing : Job)
    : s.RetimedFrom (s.storeDeduplicatedNextLocked candidate existing).1 := by
  unfold storeDeduplicatedNextLocked
  split
  · exact .of_jobs rfl
  · split
    · exact .of_jobs rfl
    · simp only
      unfold clearOwnerExpiration
      split
      · exact .of_jobs rfl
      · next found => exact ⟨(retimedFrom_setJob (s := s) found none).record⟩

theorem retimedFrom_extendDeduplicationExpirationLocked (s : InMemoryJobQueueState)
    (candidate : Job) (existingId : JobId) (now : DateTime)
    : s.RetimedFrom (s.extendDeduplicationExpirationLocked candidate existingId now).1 := by
  unfold extendDeduplicationExpirationLocked
  split
  · exact .of_jobs rfl
  · split
    · exact .of_jobs rfl
    · next found => exact retimedFrom_setJob found _

theorem retimedFrom_addChild (find : Find) (now : DateTime) (submittedParent : Bool)
    (duplicated : Finset JobId) (d : FlowDeduplication) (child : Job)
    : d.state.RetimedFrom (d.addChild find now submittedParent duplicated child).1.state := by
  unfold FlowDeduplication.addChild
  split
  · exact .of_jobs rfl
  · split
    · exact .of_jobs rfl
    · split
      · next existing _ =>
          split
          · have stored := retimedFrom_storeDeduplicatedNextLocked d.state child existing
            split
            · next outcome =>
                rw [outcome] at stored
                exact stored
            · next outcome =>
                rw [outcome] at stored
                exact stored
          · exact retimedFrom_extendDeduplicationExpirationLocked d.state child _ now
      · split
        · exact .of_jobs rfl
        · exact .of_jobs rfl

/-- The loop only retimes records, by induction on the children. -/
theorem retimedFrom_addChildren (find : Find) (now : DateTime) (submittedParent : Bool)
    (duplicated : Finset JobId) (d : FlowDeduplication) (children : List Job)
    : d.state.RetimedFrom (d.addChildren find now submittedParent duplicated children).1.state := by
  induction children generalizing d with
  | nil => exact .of_jobs rfl
  | cons child rest ih =>
      have first := retimedFrom_addChild find now submittedParent duplicated d child
      unfold FlowDeduplication.addChildren
      split
      · next outcome =>
          rw [outcome] at first
          exact first
      · next outcome =>
          rw [outcome] at first
          exact first.trans (ih _)

-----------------------------------------------------------------------------------------
-- Storing the children
-----------------------------------------------------------------------------------------

/-- The children of a submission to `parentId` that are retained may report to it at once. -/
def AttachedReport (o : Source) (s : InMemoryJobQueueState) (parentId : JobId)
    (duplicated : Finset JobId) (children : List Job)
    : Prop :=
  ∀ child ∈ children,
    ∀ existing,
      child.id ∈ duplicated
      → s.jobs.get child.id = some existing
      → o.reports parentId { existing with parentId := some parentId }

theorem get_insertCreated_ne {other : JobId} (different : other ≠ job.id)
    : (s.insertCreated job now).1.jobs.get other = s.jobs.get other := by
  have forgotten : (s.forgetReleasedDeduplicationOwnerLocked job).jobs = s.jobs := by
    unfold forgetReleasedDeduplicationOwnerLocked
    split <;> rfl
  obtain ⟨enqueuedSeq, stored, kept⟩ :=
    assignWaitingOrder_eq (s.forgetReleasedDeduplicationOwnerLocked job) job
  unfold insertCreated
  simp only
  rw [jobs_of_tables (emitJobCreatedEventsLocked_tables _ _ _)]
  simp only [setJob, JobMap.get_insert, stored, jobs_of_tables kept, forgotten, if_neg different]

/-- Storing one child leaves the other records. -/
theorem get_storeFlowChild_ne {other : JobId} {child : Job} {owner : JobId → Option Job}
    (different : other ≠ child.id)
    : (storeFlowChild parentId now owner duplicated s child).1.jobs.get other
      = s.jobs.get other := by
  unfold storeFlowChild
  split
  · rw [jobs_of_tables (emitDeduplicatedEventsLocked_tables _ _ _ _)]
  · split
    · split
      · rfl
      · next existing found =>
          simp only
          rw [jobs_of_tables (emitDuplicatedEventLocked_tables _ _ _),
            jobs_of_tables (recordTerminalChildDependencyLocked_tables _ _ _)]
          simp only [setJob, JobMap.get_insert, JobMap.get_id found, if_neg different]
    · simp only [insertSequenced_eq_insertCreated]
      exact get_insertCreated_ne different

theorem files_storeFlowChild {child : Job} {owner : JobId → Option Job}
    (enters : owner child.id = none → child.id ∉ duplicated → o.enters child.id)
    (attached
      : ∀ existing,
          child.id ∈ duplicated
          → s.jobs.get child.id = some existing
          → o.reports parentId { existing with parentId := some parentId })
    : Filings o s.shelf (storeFlowChild parentId now owner duplicated s child).1.shelf := by
  unfold storeFlowChild
  split
  · exact .of_eq (emitDeduplicatedEventsLocked_shelf _ _ _ _)
  · next unowned =>
      split
      · next member =>
          split
          · exact .refl
          · next existing found =>
              have written
                  : (s.setJob { existing with parentId := some parentId }).shelf = s.shelf :=
                shelf_update found rfl
              simp only [emitDuplicatedEventLocked_shelf]
              rw [← written]
              exact files_recordTerminalChildDependencyLocked (attached existing member found)
      · next fresh => exact files_insertSequenced (enters unowned fresh)

/-- The children are stored in order, by induction on them. -/
theorem files_storeFlowChildren {owner : JobId → Option Job}
    (distinct : (children.map Job.id).Nodup)
    (enters : ∀ child ∈ children, child.id ∉ duplicated → o.enters child.id)
    (attached : AttachedReport o s parentId duplicated children)
    : Filings o s.shelf (storeFlowChildren parentId now owner duplicated s children).1.shelf := by
  induction children generalizing s with
  | nil => exact .refl
  | cons child rest ih =>
      rw [List.map_cons, List.nodup_cons] at distinct
      have first : Filings o s.shelf (storeFlowChild parentId now owner duplicated s child).1.shelf :=
        files_storeFlowChild (fun _ => enters child List.mem_cons_self)
          (attached child List.mem_cons_self)
      refine first.trans (ih distinct.2 (fun other member =>
        enters other (List.mem_cons_of_mem _ member)) ?_)
      intro other member existing isDuplicate known
      refine attached other (List.mem_cons_of_mem _ member) existing isDuplicate ?_
      rw [← known]
      refine (get_storeFlowChild_ne ?_).symm
      intro same
      exact distinct.1 (same ▸ List.mem_map_of_mem member)

theorem files_releaseUnlessNext (s : InMemoryJobQueueState) (d : FlowDeduplication)
    (parentId : JobId) (now : DateTime)
    : Filings o s.shelf (s.releaseUnlessNext d parentId now).shelf := by
  unfold releaseUnlessNext
  split
  · exact files_releaseParentIfReadyLocked s parentId now
  · exact .refl

-----------------------------------------------------------------------------------------
-- Flows
-----------------------------------------------------------------------------------------

/-- The record of a retained child that a submission attaches to `parentId`. A parent that
lists the child already is its parent.
-/
def Attaches (s : InMemoryJobQueueState) (parentId : JobId) (children : List Job) (child : Job)
    : Prop :=
  child.id ∈ children.map Job.id
    ∧ ∃ old,
        s.jobs.get child.id = some old
        ∧ child.state = old.state
        ∧ child.options = old.options
        ∧ ∀ parent,
            s.jobs.get parentId = some parent
            → child.id ∈ parent.childIds
            → old.parentId = some parentId

theorem attachedReport_of_attachable {existingIds : List JobId}
    (attachable : s.Attachable parentId existingIds children duplicated)
    (retimed : s.RetimedFrom t)
    (listing : ∀ parent, s.jobs.get parentId = some parent → parent.childIds = existingIds)
    (attaches : ∀ child, s.Attaches parentId children child → o.reports parentId child)
    : AttachedReport o t parentId duplicated children := by
  intro child member existing isDuplicate found
  obtain ⟨old, known, same⟩ := retimed.record found
  have sameId : existing.id = child.id := JobMap.get_id found
  refine attaches _ ⟨?_, old, ?_, ?_, ?_, ?_⟩
  · rw [sameId]
    exact List.mem_map_of_mem member
  · rw [sameId]
    exact known
  · rw [same]
  · rw [same]
  · intro parent retained listed
    rw [sameId, listing parent retained] at listed
    exact attachable.listed child member _ (board_cards_of_get known) listed

/-- An update of the parent does not concern the reports of its children. -/
theorem AttachedReport.setJob (report : AttachedReport o s parentId duplicated children)
    (parent : parentId = job.id) (apart : parentId ∉ children.map Job.id)
    : AttachedReport o (s.setJob job) parentId duplicated children := by
  intro child member existing isDuplicate found
  refine report child member existing isDuplicate ?_
  rw [← found]
  simp only [InMemoryJobQueueState.setJob, JobMap.get_insert]
  rw [if_neg]
  intro same
  exact apart (parent ▸ same ▸ List.mem_map_of_mem member)

theorem entering_of_attachable {existingIds : List JobId}
    (attachable : s.Attachable parentId existingIds children duplicated)
    (enters : ∀ id, s.jobs.get id = none → o.enters id)
    : ∀ child ∈ children, child.id ∉ duplicated → o.enters child.id := by
  intro child member fresh
  refine enters child.id ?_
  by_contra retained
  refine fresh ((attachable.retained child member).mpr ?_)
  obtain ⟨stored, found⟩ := Option.ne_none_iff_exists'.mp retained
  exact ⟨_, board_cards_of_get found⟩

theorem files_attachToExistingParent {existingParent : Job} {d : FlowDeduplication}
    (records : ChildRecords existingParent.id children)
    (enters : ∀ child ∈ children, child.id ∉ duplicated → o.enters child.id)
    (attached : AttachedReport o s existingParent.id duplicated children)
    : Filings o s.shelf
        (s.attachToExistingParent existingParent children duplicated d now).1.shelf := by
  unfold attachToExistingParent
  simp only
  refine Relation.ReflTransGen.trans ?_ (files_releaseUnlessNext _ d _ now)
  split
  · exact files_storeFlowChildren records.distinct enters attached
  · next parent found =>
      generalize written_eq
        : ({ parent with
            childIds := appendChildIds parent.childIds (children.filter d.listsChild) } : Job)
          = written
      have writtenId : written.id = parent.id := by rw [← written_eq]
      have same : (s.setJob written).shelf = s.shelf := shelf_update found writtenId
      rw [← same]
      refine files_storeFlowChildren records.distinct enters (attached.setJob ?_ records.apart)
      rw [writtenId, JobMap.get_id found]

theorem files_addFlowForExistingParentLocked {existingParent : Job}
    (found : s.jobs.get existingParent.id = some existingParent)
    (records : ChildRecords existingParent.id children)
    (enters : ∀ id, s.jobs.get id = none → o.enters id)
    (attaches
      : ∀ child, s.Attaches existingParent.id children child → o.reports existingParent.id child)
    : Filings o s.shelf
        (s.addFlowForExistingParentLocked find existingParent children now).1.shelf := by
  unfold addFlowForExistingParentLocked
  simp only
  have told : (s.emitDuplicatedEventLocked existingParent now).shelf = s.shelf :=
    emitDuplicatedEventLocked_shelf s existingParent now
  have jobs : (s.emitDuplicatedEventLocked existingParent now).jobs = s.jobs :=
    jobs_of_tables (emitDuplicatedEventLocked_tables _ _ _)
  generalize s.emitDuplicatedEventLocked existingParent now = emitted at told jobs ⊢
  split
  · exact .of_eq told
  · next duplicated accepted =>
      have attachable := attachable_of_ok accepted
      have same := shelf_addChildren find now false duplicated
        { state := emitted, childIds := [], flowDeduplicationIds := ∅ } children
      have retimed := retimedFrom_addChildren find now false duplicated
        { state := emitted, childIds := [], flowDeduplicationIds := ∅ } children
      split
      · next outcome =>
          rw [outcome] at same
          exact .of_eq (same.trans told)
      · next d outcome =>
          rw [outcome] at same retimed
          split
          · exact .of_eq (same.trans told)
          · rw [← told, ← same]
            refine files_attachToExistingParent records ?_ ?_
            · exact entering_of_attachable attachable (fun id absent => enters id (jobs ▸ absent))
            · refine attachedReport_of_attachable attachable retimed ?_ ?_
              · intro parent retained
                rw [jobs, found] at retained
                rw [← Option.some.inj retained]
              · intro child attachment
                unfold Attaches at attachment
                rw [jobs] at attachment
                exact attaches child attachment

theorem shelf_coalesceFlow (s : InMemoryJobQueueState) (candidate : JobFlow) (existing : Job)
    (now : DateTime)
    : (s.coalesceFlow candidate existing now).1.shelf = s.shelf := by
  have stored := storeDeduplicatedNextFlowLocked_shelf s candidate existing
  unfold coalesceFlow
  split
  · next outcome =>
      rw [outcome] at stored
      exact (emitDeduplicatedEventsLocked_shelf _ _ _ _).trans stored
  · next outcome =>
      rw [outcome] at stored
      simpa using stored

theorem files_insertFlow {parent : Job} {d : FlowDeduplication}
    (records : ChildRecords parent.id children) (entersParent : o.enters parent.id)
    (enters : ∀ child ∈ children, child.id ∉ duplicated → o.enters child.id)
    (attached : AttachedReport o s parent.id duplicated children)
    : Filings o s.shelf (s.insertFlow parent children duplicated d now).1.shelf := by
  have inserted : Filings o s.shelf (s.insertSequenced parent now).1.shelf :=
    files_insertSequenced entersParent
  obtain ⟨_, enqueuedSeq, drawn⟩ := board_insertSequenced s parent now
  have others {id : JobId} (different : id ≠ parent.id)
      : (s.insertSequenced parent now).1.jobs.get id = s.jobs.get id := by
    rw [insertSequenced_eq_insertCreated]
    exact get_insertCreated_ne different
  unfold insertFlow
  generalize s.insertSequenced parent now = outcome at inserted drawn others ⊢
  obtain ⟨t, stored⟩ := outcome
  simp only at inserted drawn others ⊢
  subst drawn
  refine inserted.trans (Relation.ReflTransGen.trans ?_ (files_releaseUnlessNext _ d _ now))
  refine files_storeFlowChildren records.distinct enters ?_
  intro child member existing isDuplicate found
  refine attached child member existing isDuplicate ?_
  rw [← found]
  refine (others ?_).symm
  intro same
  exact records.apart (same ▸ List.mem_map_of_mem member)

theorem files_addNewFlowLocked {parent : Job} (absent : s.jobs.get parent.id = none)
    (records : ChildRecords parent.id children)
    (enters : ∀ id, s.jobs.get id = none → o.enters id)
    (attaches : ∀ child, s.Attaches parent.id children child → o.reports parent.id child)
    : Filings o s.shelf (s.addNewFlowLocked find parent children now).1.shelf := by
  unfold addNewFlowLocked
  split
  · exact .refl
  · next duplicated accepted =>
      have attachable := attachable_of_ok accepted
      simp only
      generalize start_eq
        : ({ state := s, childIds := parent.childIds, flowDeduplicationIds := _ }
          : FlowDeduplication) = start
      have same := shelf_addChildren find now true duplicated start children
      have retimed := retimedFrom_addChildren find now true duplicated start children
      rw [show start.state = s by rw [← start_eq]] at same retimed
      split
      · next outcome =>
          rw [outcome] at same
          exact .of_eq same
      · next d outcome =>
          rw [outcome] at same retimed
          split
          · exact .of_eq same
          · rw [← same]
            refine files_insertFlow records (enters _ absent)
              (entering_of_attachable attachable enters) ?_
            refine attachedReport_of_attachable attachable retimed ?_ attaches
            intro retained found
            cases absent.symm.trans found

theorem files_addFlowLocked {parent : Job} (records : ChildRecords parent.id children)
    (enters : ∀ id, s.jobs.get id = none → o.enters id)
    (attaches : ∀ child, s.Attaches parent.id children child → o.reports parent.id child)
    : Filings o s.shelf (s.addFlowLocked find parent children now).1.shelf := by
  unfold addFlowLocked
  split
  · next existingParent found =>
      have sameId : existingParent.id = parent.id := JobMap.get_id found
      rw [← sameId] at found records attaches
      exact files_addFlowForExistingParentLocked found records enters attaches
  · next absent =>
      split
      · exact .of_eq (shelf_coalesceFlow s _ _ now)
      · exact files_addNewFlowLocked absent records enters attaches

theorem files_addFlowAt (cron : Cron) (queue : QueueName) (parent : JobSpec × JobId)
    (specs : List (JobSpec × JobId)) (enters : ∀ id, s.jobs.get id = none → o.enters id)
    (attaches
      : let parentId := (jobOfSpec queue now parent).id
        ∀ child,
          s.Attaches parentId (flowChildJobs queue parentId specs now) child
          → o.reports parentId child)
    : Filings o s.shelf (s.addFlowAt cron find queue parent specs now).1.shelf := by
  unfold addFlowAt
  split
  · exact .refl
  · simp only
    split
    · exact .refl
    · next valid =>
        have flow := flowRecords_of_valid valid
        exact files_addFlowLocked flow.records enters attaches

-----------------------------------------------------------------------------------------
-- Dynamic children
-----------------------------------------------------------------------------------------

/-- A fan-out parks its parent, stores the children and may release the parent at once. -/
theorem files_fanOut {parent : Job} {d : FlowDeduplication}
    (found : s.jobs.get parent.id = some parent) (records : ChildRecords parent.id children)
    (enters : ∀ child ∈ children, child.id ∉ duplicated → o.enters child.id)
    (attached : AttachedReport o s parent.id duplicated children)
    : Filings o s.shelf (s.fanOut parent children duplicated d now).1.shelf := by
  unfold fanOut
  simp only
  refine Relation.ReflTransGen.trans ?_ (files_releaseUnlessNext _ d _ now)
  rw [emitEventLocked_shelf]
  generalize written_eq
    : ({ unleasedParent parent .waitingChildren with
        childIds := appendChildIds parent.childIds (children.filter d.listsChild) } : Job)
      = written
  have writtenId : written.id = parent.id := by
    rw [← written_eq]
    rfl
  have same : (s.setJob written).shelf = s.shelf := shelf_update found writtenId
  rw [← same]
  exact files_storeFlowChildren records.distinct enters
    (attached.setJob writtenId.symm records.apart)

theorem files_addFlowChildrenLocked (lockToken : JobLockToken)
    (records : ChildRecords parentId children)
    (enters : ∀ id, s.jobs.get id = none → o.enters id)
    (attaches : ∀ child, s.Attaches parentId children child → o.reports parentId child)
    : Filings o s.shelf
        (s.addFlowChildrenLocked find parentId lockToken children now).1.shelf := by
  unfold addFlowChildrenLocked
  split
  · exact .refl
  · next accepted =>
      obtain ⟨known, _⟩ := requireFanOutParent_ok accepted
      split
      · exact .refl
      · next duplicated joined =>
          have attachable := attachable_of_ok joined
          have same := shelf_addChildren find now false duplicated
            { state := s, childIds := [], flowDeduplicationIds := ∅ } children
          have retimed := retimedFrom_addChildren find now false duplicated
            { state := s, childIds := [], flowDeduplicationIds := ∅ } children
          simp only
          split
          · next outcome =>
              rw [outcome] at same
              exact .of_eq same
          · next d outcome =>
              rw [outcome] at same retimed
              split
              · exact .of_eq same
              · split
                · exact .of_eq same
                · next parent stored =>
                    obtain rfl := JobMap.get_id stored
                    simp only at same
                    rw [← same]
                    refine files_fanOut stored records
                      (entering_of_attachable attachable enters) ?_
                    refine attachedReport_of_attachable attachable retimed ?_ attaches
                    intro retained found
                    rw [known] at found
                    rw [← Option.some.inj found]

theorem files_addFlowChildrenAt (cron : Cron) (queue : QueueName) (lockToken : JobLockToken)
    (specs : List (JobSpec × JobId)) (enters : ∀ id, s.jobs.get id = none → o.enters id)
    (attaches
      : ∀ child,
          s.Attaches parentId (flowChildJobs queue parentId specs now) child
          → o.reports parentId child)
    : Filings o s.shelf
        (s.addFlowChildrenAt cron find queue parentId lockToken specs now).1.shelf := by
  unfold addFlowChildrenAt
  split
  · exact .refl
  · split
    · exact .refl
    · simp only
      split
      · exact .refl
      · next valid =>
          obtain ⟨distinct, apart⟩ := rejectDuplicateJobIds_ok valid
          refine files_addFlowChildrenLocked lockToken ?_ enters attaches
          exact childRecords_flowChildJobs distinct
            (fun member => apart parentId member (Finset.mem_singleton_self parentId))

end InMemoryJobQueueState

end Lane
