import Lane.Board.Plans

/-! Flow submissions and dynamic fan-outs on the board. -/

namespace Lane

/-- The records of a flow submission. -/
structure FlowRecords (parent : Job) (children : List Job) : Prop where
  records : ChildRecords parent.id children
  parentless : parent.parentId = none
  tokenless : parent.lockToken = none
  listed : parent.childIds = children.map Job.id
  phase : parent.state.phase = if children = [] then .ready else .parked

namespace InMemoryJobQueueState

/-- The outcomes of a flow submission. -/
inductive FlowSubmits (s : InMemoryJobQueueState) (parent : Job) (children : List Job)
    (now : DateTime)
    : Board → Prop
  | refused : FlowSubmits s parent children now s.board
  | sifted {kept : String → Option Job} {after : Board}
    (sifts : s.board.Sifts now children kept after)
    : FlowSubmits s parent children now after
  | coalesced {key : String} {ownerId : JobId} {after : Board}
    (own : jobDeduplicationId parent = some key) (owns : s.board.Owns now key ownerId)
    (coalesces
      : s.board.Coalesces key ownerId (fun _ => False) (· = { parent, children }) after)
    : FlowSubmits s parent children now after
  | joined {p : FlowPlan} {retained old : Card} {after : Board}
    (found : s.board.cards parent.id = some retained)
    (retimed : p.sifted.cards parent.id = some old)
    (gathers : s.board.Gathers now false parent.id children old.childIds p)
    (ends : p.Ends parent.id (p.filled parent.id { old with childIds := p.childIds }) after)
    : FlowSubmits s parent children now after
  | created {p : FlowPlan} {after : Board}
    (absent : s.board.cards parent.id = none)
    (gathers : s.board.Gathers now true parent.id children [] p)
    (unowned
      : ∀ key,
          activeDeduplicationId parent now = some key
          → (∀ id, ¬ s.board.Owns now key id)
            ∧ ∀ child ∈ p.inserted, activeDeduplicationId child now ≠ some key)
    (uncarried
      : ∀ key,
          parent.repeatKey = some key
          → (∀ id, ¬ s.board.Carries key id)
            ∧ ∀ child ∈ p.inserted, child.repeatKey ≠ some key)
    (ends
      : p.Ends parent.id
          (p.filled parent.id
            { parent.freshCard with
              childIds := p.childIds
              phase := if p.childIds = [] then .ready else .parked })
          after)
    : FlowSubmits s parent children now after

/-- The outcomes of a dynamic fan-out. -/
inductive FansOut (s : InMemoryJobQueueState) (parentId : JobId) (lockToken : JobLockToken)
    (children : List Job) (now : DateTime)
    : Board → Prop
  | refused : FansOut s parentId lockToken children now s.board
  | sifted {kept : String → Option Job} {after : Board}
    (sifts : s.board.Sifts now children kept after)
    : FansOut s parentId lockToken children now after
  | fannedOut {p : FlowPlan} {old : Card} {after : Board}
    (leased : s.board.Leased parentId lockToken)
    (retimed : p.sifted.cards parentId = some old)
    (gathers : s.board.Gathers now false parentId children old.childIds p)
    (ends
      : p.Ends parentId
          (p.filled parentId { old.moved .parked with childIds := p.childIds }) after)
    : FansOut s parentId lockToken children now after

variable {s : InMemoryJobQueueState} {find : Find} {parent : Job} {children : List Job}
  {parentId : JobId} {existingIds : List JobId} {now : DateTime}

-----------------------------------------------------------------------------------------
-- The submitted records
-----------------------------------------------------------------------------------------

/-- The duplicate check accepts distinct unseen ids, by induction on them. -/
theorem rejectDuplicateJobIds_ok {seen : Finset JobId} {ids : List JobId}
    (accepted : rejectDuplicateJobIds seen ids = .ok ())
    : ids.Nodup ∧ ∀ id ∈ ids, id ∉ seen := by
  induction ids generalizing seen with
  | nil => simp
  | cons id rest ih =>
      unfold rejectDuplicateJobIds at accepted
      split at accepted
      · cases accepted
      · next unseen =>
          obtain ⟨distinct, apart⟩ := ih accepted
          refine ⟨List.nodup_cons.mpr ⟨?_, distinct⟩, ?_⟩
          · intro again
            exact apart id again (Finset.mem_insert_self _ _)
          · intro other member
            rcases List.mem_cons.mp member with rfl | member
            · exact unseen
            · exact fun early => apart other member (Finset.mem_insert_of_mem early)

theorem childRecords_flowChildJobs {queue : QueueName} {specs : List (JobSpec × JobId)}
    (distinct : ((flowChildJobs queue parentId specs now).map Job.id).Nodup)
    (apart : parentId ∉ (flowChildJobs queue parentId specs now).map Job.id)
    : ChildRecords parentId (flowChildJobs queue parentId specs now) := by
  have each {child : Job} (member : child ∈ flowChildJobs queue parentId specs now)
      : ∃ spec, child = { jobOfSpec queue now spec with parentId := some parentId } := by
    obtain ⟨spec, _, rfl⟩ := List.mem_map.mp member
    exact ⟨spec, rfl⟩
  have submitted (spec : JobSpec × JobId) : Submitted (jobOfSpec queue now spec) :=
    submitted_new _ _ _ _ _ _
  refine ⟨?_, ?_, ?_, ?_, distinct, apart⟩
  · intro child member
    obtain ⟨spec, rfl⟩ := each member
    rfl
  · intro child member
    obtain ⟨spec, rfl⟩ := each member
    exact (submitted spec).childless
  · intro child member
    obtain ⟨spec, rfl⟩ := each member
    exact (submitted spec).ready
  · intro child member
    obtain ⟨spec, rfl⟩ := each member
    exact (submitted spec).tokenless

theorem flowRecords_of_valid {queue : QueueName} {parentSpec : JobSpec × JobId}
    {specs : List (JobSpec × JobId)}
    (valid
      : let children := flowChildJobs queue (jobOfSpec queue now parentSpec).id specs now
        validateFlowJobIds (flowParentJob queue parentSpec children now) children = .ok ())
    : let children := flowChildJobs queue (jobOfSpec queue now parentSpec).id specs now
      FlowRecords (flowParentJob queue parentSpec children now) children := by
  obtain ⟨distinct, _⟩ := rejectDuplicateJobIds_ok valid
  obtain ⟨apart, distinct⟩ := List.nodup_cons.mp distinct
  have submitted : Submitted (jobOfSpec queue now parentSpec) := submitted_new _ _ _ _ _ _
  refine ⟨childRecords_flowChildJobs distinct apart, submitted.parentless, submitted.tokenless,
    rfl, ?_⟩
  simp only [flowParentJob, List.isEmpty_iff]
  split
  · next none => rw [stateAfterDependencies_phase]
  · rfl

-----------------------------------------------------------------------------------------
-- A retained parent
-----------------------------------------------------------------------------------------

/-- The facts that a loop over all children established when it succeeded. -/
theorem facts_of_addChildren {submittedParent : Bool} {duplicated : Finset JobId}
    {start d : FlowDeduplication} {result : Result Unit}
    (records : ChildRecords parentId children)
    (attachable : start.state.Attachable parentId existingIds children duplicated)
    (coalesced : start.deduplicatedChildren = ∅) (kept : start.deduplicatedNextChildren = ∅)
    (byId : start.deduplicatedNextChildById = ∅)
    (run : start.addChildren find now submittedParent duplicated children = (d, result))
    : (∃ kept, start.state.board.Sifts now children kept d.state.board)
      ∧ (result = .ok ()
        → FlowDeduplication.Facts now submittedParent duplicated start children d) := by
  obtain ⟨more, last, within, facts, state, all⟩ :=
    (FlowDeduplication.Facts.initial coalesced kept byId).addChildren (by simpa using records.distinct)
      run
  refine ⟨⟨last.kept, ?_⟩, ?_⟩
  · rw [state]
    refine facts.sifts within.subset ?_
    intro child member apart
    cases shown : start.state.board.cards child.id with
    | none => rfl
    | some card =>
        exact absurd ((attachable.retained child (within.subset member)).mpr ⟨card, shown⟩) apart
  · intro accepted
    obtain ⟨rfl, rfl⟩ := all accepted
    simpa using facts

/-- The writes onto a retained parent follow the plan. -/
theorem ends_attachToExistingParent {duplicated : Finset JobId} {d : FlowDeduplication}
    {start : FlowDeduplication} (existingParent : Job) {stored : Job}
    (facts : FlowDeduplication.Facts now false duplicated start children d)
    (submitted : ∀ id ∈ duplicated, id ∈ children.map Job.id)
    (distinct : (children.map Job.id).Nodup)
    (found : d.state.jobs.get existingParent.id = some stored)
    : let old := stored.card d.state.releasedDeduplicationOwners
      let p := d.plan duplicated children
        (appendChildIds old.childIds (children.filter d.listsChild))
      p.Ends existingParent.id (p.filled existingParent.id { old with childIds := p.childIds })
        (d.state.attachToExistingParent existingParent children duplicated d now).1.board := by
  intro old p
  have sameId : stored.id = existingParent.id := JobMap.get_id found
  unfold attachToExistingParent
  simp only [found]
  have written
      : (d.state.setJob
          { stored with
            childIds := appendChildIds stored.childIds (children.filter d.listsChild) }).board
        = d.state.board.put existingParent.id { old with childIds := p.childIds } := by
    rw [board_setJob]
    exact congrArg (d.state.board.put · { old with childIds := p.childIds }) sameId
  have ends := facts.ends children p.childIds
    (storeFlowChildren existingParent.id now (d.owner false) duplicated
      (d.state.setJob
        { stored with
          childIds := appendChildIds stored.childIds (children.filter d.listsChild) })
      children).1
    existingParent.id now
  rw [facts.filled p.childIds submitted distinct written] at ends
  exact ends

theorem flowSubmits_addFlowForExistingParentLocked (find : Find) (s : InMemoryJobQueueState)
    (found : s.jobs.get parent.id = some existingParent)
    (records : ChildRecords parent.id children) (now : DateTime)
    : let after := (s.addFlowForExistingParentLocked find existingParent children now).1.board
      s.FlowSubmits parent children now after ∧ s.board.KeepsBeside after := by
  intro after
  have sameId : existingParent.id = parent.id := JobMap.get_id found
  have emitted := emitDuplicatedEventLocked_tables s existingParent now
  unfold after addFlowForExistingParentLocked
  simp only
  generalize s.emitDuplicatedEventLocked existingParent now = started at emitted ⊢
  have startBoard : started.board = s.board := board_of_tables emitted
  split
  · rw [startBoard]
    exact ⟨.refused, .refl _⟩
  · next duplicated accepted =>
      have attachable := attachable_of_ok accepted
      rw [sameId] at attachable
      generalize run
        : FlowDeduplication.addChildren find now false duplicated
          { state := started, childIds := [], flowDeduplicationIds := ∅ } children = outcome
      obtain ⟨d, result⟩ := outcome
      obtain ⟨⟨kept, sifts⟩, success⟩ := facts_of_addChildren records attachable rfl rfl rfl run
      simp only [startBoard] at sifts
      cases result with
      | error error => exact ⟨.sifted sifts, sifts.keepsBeside⟩
      | ok =>
          have facts := success rfl
          simp only
          split
          · exact ⟨.sifted sifts, sifts.keepsBeside⟩
          · next checked =>
              obtain ⟨uncarried, singly⟩ := checkFlowRepeatKeys_ok checked
              obtain ⟨old, shown, same⟩ := sifts.retimes.card_after (board_cards_of_get found)
              obtain ⟨stored, storedFound, rfl⟩ := board_cards_some shown
              have sameChildren := congrArg Card.childIds same
              simp only [Card.untimed, Job.card] at sameChildren
              have gathers := facts.gathers records attachable
                (fun child member key own => (uncarried child member key own).2) singly
                FlowDeduplication.lists_retained
              have ends := ends_attachToExistingParent existingParent facts attachable.submitted
                records.distinct (by rw [sameId]; exact storedFound)
              simp only [startBoard] at gathers
              rw [sameId] at ends
              rw [← sameChildren] at gathers
              refine ⟨.joined (board_cards_of_get found) shown gathers ends, ?_⟩
              exact fun key keeps => gathers.sifts.keepsBeside key (ends.keeps keeps)

-----------------------------------------------------------------------------------------
-- A new parent
-----------------------------------------------------------------------------------------

/-- A flow that an owner answers may be kept for later, if the owner is active, or extend the
owner's TTL.
-/
theorem coalesces_active_coalesceFlow (s : InMemoryJobQueueState) (candidate : JobFlow)
    (existing : Job) (now : DateTime) {key : String}
    (own : jobDeduplicationId candidate.parent = some key)
    : s.board.Coalesces key existing.id (fun _ => False)
        (fun kept => kept = candidate ∧ existing.state = .active)
        (s.coalesceFlow candidate existing now).1.board := by
  unfold coalesceFlow
  rcases board_storeDeduplicatedNextFlowLocked s candidate existing with
    same | ⟨other, stores, known, stored, board⟩
  · simp only [same]
    rw [board_of_tables (emitDeduplicatedEventsLocked_tables _ _ _ _)]
    exact coalesces_extend s candidate.parent existing.id now key _ _
  · rw [own] at known
    obtain rfl := Option.some.inj known
    generalize s.storeDeduplicatedNextFlowLocked candidate existing = outcome at stored board ⊢
    obtain ⟨state, kept⟩ := outcome
    simp only at stored board
    subst stored
    simp only
    rw [board_of_tables (emitDeduplicatedEventsLocked_tables _ _ _ _), board]
    unfold deduplicationStoresNextFlowIfActive at stores
    simp only [Bool.and_eq_true, beq_iff_eq] at stores
    exact .keptFlow ⟨rfl, stores.1.1.1.2⟩ own

theorem childIds_subset_flowParent {duplicated : Finset JobId} {start d : FlowDeduplication}
    (facts : FlowDeduplication.Facts now true duplicated start children d)
    (all : start.childIds = children.map Job.id)
    (some : (flowParent d parent now).childIds ≠ [])
    : children ≠ [] := by
  rintro rfl
  apply some
  refine List.eq_nil_iff_forall_not_mem.mpr ?_
  intro id member
  have listed := facts.listed id (List.mem_filter.mp member).1
  rw [all] at listed
  cases listed

/-- The card of the parent once the deduplicated children left its list. -/
theorem freshCard_flowParent {duplicated : Finset JobId} {start d : FlowDeduplication}
    (flow : FlowRecords parent children)
    (facts : FlowDeduplication.Facts now true duplicated start children d)
    (all : start.childIds = children.map Job.id)
    : (flowParent d parent now).freshCard
      = { parent.freshCard with
          childIds := (flowParent d parent now).childIds
          phase := if (flowParent d parent now).childIds = [] then .ready else .parked } := by
  have phase
      : (flowParent d parent now).state.phase
        = if (flowParent d parent now).childIds = [] then .ready else .parked := by
    split
    · next none =>
        simp only [flowParent] at none ⊢
        rw [if_pos (List.isEmpty_iff.mpr none), stateAfterDependencies_phase]
    · next some =>
        have children_ne := childIds_subset_flowParent facts all some
        simp only [flowParent] at some ⊢
        rw [if_neg (mt List.isEmpty_iff.mp some), flow.phase, if_neg children_ne]
  rw [← phase]
  rfl

theorem ends_insertFlow {duplicated : Finset JobId} {start d : FlowDeduplication}
    (facts : FlowDeduplication.Facts now true duplicated start children d)
    (submitted : ∀ id ∈ duplicated, id ∈ children.map Job.id)
    (distinct : (children.map Job.id).Nodup)
    (written : Job)
    : let p := d.plan duplicated children written.childIds
      p.Ends written.id (p.filled written.id written.freshCard)
        (d.state.insertFlow written children duplicated d now).1.board := by
  intro p
  unfold insertFlow
  obtain ⟨board, enqueuedSeq, drawn⟩ := board_insertSequenced d.state written now
  generalize d.state.insertSequenced written now = inserted at board drawn
  obtain ⟨state, stored⟩ := inserted
  simp only at board drawn ⊢
  subst drawn
  have ends := facts.ends children p.childIds
    (storeFlowChildren written.id now (d.owner true) duplicated state children).1 written.id now
  rw [facts.filled p.childIds submitted distinct board now] at ends
  exact ends

theorem flowSubmits_addNewFlowLocked (find : Find) (s : InMemoryJobQueueState)
    (absent : s.jobs.get parent.id = none) (flow : FlowRecords parent children)
    (unowned
      : findActiveDeduplicatedJob find s.jobs s.releasedDeduplicationOwners parent now = none)
    : let after := (s.addNewFlowLocked find parent children now).1.board
      s.FlowSubmits parent children now after ∧ s.board.KeepsBeside after := by
  intro after
  have records := flow.records
  have nobody {key : String} (active : activeDeduplicationId parent now = some key) (id : JobId)
      : ¬ s.board.Owns now key id := by
    unfold findActiveDeduplicatedJob at unowned
    rw [active] at unowned
    exact not_owns_of_find unowned id
  unfold after addNewFlowLocked
  split
  · exact ⟨.refused, .refl _⟩
  · next duplicated accepted =>
      have attachable := attachable_of_ok accepted
      simp only
      generalize start_eq
        : ({ state := s
             childIds := parent.childIds
             flowDeduplicationIds := (activeDeduplicationId parent now).elim ∅ (fun id => {id}) }
            : FlowDeduplication)
          = start
      have startState : start.state = s := by rw [← start_eq]
      have startIds : start.childIds = children.map Job.id := by
        rw [← start_eq]
        exact flow.listed
      have startKey {key : String} (active : activeDeduplicationId parent now = some key)
          : key ∈ start.flowDeduplicationIds := by
        rw [← start_eq]
        simp [active]
      have drops := start.addChildren_childIds find now true duplicated children
      generalize run : start.addChildren find now true duplicated children = outcome at drops
      obtain ⟨d, result⟩ := outcome
      obtain ⟨⟨kept, sifts⟩, success⟩ :=
        facts_of_addChildren records (startState ▸ attachable) (by rw [← start_eq])
          (by rw [← start_eq]) (by rw [← start_eq]) run
      rw [startState] at sifts
      cases result with
      | error error => exact ⟨.sifted sifts, sifts.keepsBeside⟩
      | ok =>
          have facts := success rfl
          simp only
          split
          · exact ⟨.sifted sifts, sifts.keepsBeside⟩
          · next checked =>
              obtain ⟨uncarried, singly⟩ := checkFlowRepeatKeys_ok checked
              obtain ⟨apart, singly⟩ := List.pairwise_cons.mp singly
              have gathers := facts.gathers records (startState ▸ attachable)
                (fun child member key own =>
                  (uncarried child (List.mem_cons_of_mem _ member) key own).2)
                singly (facts.lists_submitted records.distinct startIds drops)
              rw [startState] at gathers
              have ends := ends_insertFlow facts attachable.submitted records.distinct
                (flowParent d parent now)
              rw [freshCard_flowParent flow facts startIds] at ends
              refine ⟨.created (board_cards_none.mpr absent) gathers ?_ ?_ ends,
                fun key keeps => gathers.sifts.keepsBeside key (ends.keeps keeps)⟩
              · intro key active
                refine ⟨nobody active, ?_⟩
                intro child member same
                obtain ⟨inChildren, inserts⟩ := List.mem_filter.mp member
                rcases facts.fresh child inChildren inserts key same with
                  ⟨_, _, unnoted⟩ | ⟨_, ⟨_, _, ownerId, _, _, _, owns⟩, _⟩
                · exact unnoted (startKey active)
                · rw [startState] at owns
                  exact nobody active ownerId owns
              · intro key own
                have series {job : Job} (alive : job.state.isTerminal = false)
                    : activeRepeatKey job = job.repeatKey := by
                  simp [activeRepeatKey, alive]
                have parentAlive : (flowParent d parent now).state.isTerminal = false := by
                  have phase := congrArg (fun card => card.phase.isTerminal)
                    (freshCard_flowParent flow facts startIds)
                  simp only [Job.freshCard, Job.card, JobState.phase_isTerminal] at phase
                  rw [phase]
                  split <;> rfl
                have parentSeries : activeRepeatKey (flowParent d parent now) = some key := by
                  rw [series parentAlive]
                  exact own
                refine ⟨?_, ?_⟩
                · intro id carries
                  rw [← startState] at carries
                  exact (uncarried _ List.mem_cons_self key parentSeries).2 id
                    (facts.retimes.carries.mpr carries)
                · intro child member same
                  have childAlive : child.state.isTerminal = false := by
                    rw [← JobState.phase_isTerminal,
                      records.ready child (List.mem_filter.mp member).1]
                    rfl
                  refine apart child member key parentSeries ?_
                  rw [series childAlive]
                  exact same

/-- A flow submission under the lock. -/
theorem flowSubmits_addFlowLocked (find : Find) (s : InMemoryJobQueueState)
    (flow : FlowRecords parent children) (now : DateTime)
    : let after := (s.addFlowLocked find parent children now).1.board
      s.FlowSubmits parent children now after ∧ s.board.KeepsBeside after := by
  intro after
  unfold after addFlowLocked
  cases found : s.jobs.get parent.id with
  | some existingParent =>
      exact flowSubmits_addFlowForExistingParentLocked find s found flow.records now
  | none =>
      simp only
      split
      · next existing owner =>
          unfold findActiveDeduplicatedJob at owner
          split at owner
          · cases owner
          · next key active =>
              have own := activeDeduplicationId_some active
              obtain ⟨stored, owns⟩ := owns_of_find owner
              have coalesces :=
                coalesces_active_coalesceFlow s { parent, children } existing now own
              refine ⟨.coalesced own owns
                (coalesces.imp (fun _ impossible => impossible) (fun _ kept => kept.1)), ?_⟩
              refine coalesces.keepsBeside (fun _ impossible => impossible.elim) ?_
              rintro _ ⟨_, active⟩
              exact Board.anchors_of_owns (board_cards_of_get stored) (by simp [Job.card, active])
                owns
      · next unowned => exact flowSubmits_addNewFlowLocked find s found flow unowned

/-- A flow submission, with the records of its parent and its children. -/
theorem flowSubmits_addFlowAt (cron : Cron) (find : Find) (queue : QueueName)
    (s : InMemoryJobQueueState) (parent : JobSpec × JobId) (children : List (JobSpec × JobId))
    (now : DateTime)
    : let childJobs := flowChildJobs queue (jobOfSpec queue now parent).id children now
      let parentJob := flowParentJob queue parent childJobs now
      (s.addFlowAt cron find queue parent children now).1.board = s.board
        ∨ FlowRecords parentJob childJobs
          ∧ s.FlowSubmits parentJob childJobs now
              (s.addFlowAt cron find queue parent children now).1.board
          ∧ s.board.KeepsBeside (s.addFlowAt cron find queue parent children now).1.board := by
  intro childJobs parentJob
  unfold addFlowAt
  split
  · exact .inl rfl
  · simp only
    split
    · exact .inl rfl
    · next valid =>
        have flow := flowRecords_of_valid valid
        exact .inr ⟨flow, flowSubmits_addFlowLocked find s flow now⟩

-----------------------------------------------------------------------------------------
-- Dynamic fan-out
-----------------------------------------------------------------------------------------

theorem requireFanOutParent_ok {lockToken : JobLockToken}
    (accepted : s.requireFanOutParent parentId lockToken = .ok parent)
    : s.jobs.get parentId = some parent
      ∧ parent.state = .active
      ∧ parent.lockToken = some lockToken := by
  unfold requireFanOutParent at accepted
  split at accepted
  · cases accepted
  · next found =>
      simp only [requireActive, requireLockToken, bind, Except.bind] at accepted
      split at accepted
      · cases accepted
      · next first =>
          split at accepted
          · cases accepted
          · next second =>
              split at accepted
              · cases accepted
              · cases accepted
                split at first
                · next active =>
                    split at second
                    · next token => exact ⟨found, active, token⟩
                    · cases second
                · cases first

/-- The writes of a fan-out follow the plan. -/
theorem ends_fanOut (stored : Job) {duplicated : Finset JobId} {d start : FlowDeduplication}
    (facts : FlowDeduplication.Facts now false duplicated start children d)
    (submitted : ∀ id ∈ duplicated, id ∈ children.map Job.id)
    (distinct : (children.map Job.id).Nodup)
    : let old := stored.card d.state.releasedDeduplicationOwners
      let p := d.plan duplicated children
        (appendChildIds old.childIds (children.filter d.listsChild))
      p.Ends stored.id (p.filled stored.id { old.moved .parked with childIds := p.childIds })
        (d.state.fanOut stored children duplicated d now).1.board := by
  intro old p
  unfold fanOut
  simp only
  generalize waiting_eq
    : ({ unleasedParent stored .waitingChildren with
          childIds := appendChildIds stored.childIds (children.filter d.listsChild) } : Job)
      = waiting
  have sameId : (unleasedParent stored .waitingChildren).id = stored.id := rfl
  have written
      : (d.state.setJob waiting).board
        = d.state.board.put stored.id { old.moved .parked with childIds := p.childIds } := by
    rw [board_setJob, ← waiting_eq]
    rfl
  rw [sameId]
  have filled := facts.filled p.childIds submitted distinct written now
  have emitted := emitEventLocked_tables
    (storeFlowChildren stored.id now (d.owner false) duplicated (d.state.setJob waiting)
      children).1
    "waiting-children" (some waiting) (some .active) now []
  have ends := facts.ends children p.childIds
    ((storeFlowChildren stored.id now (d.owner false) duplicated (d.state.setJob waiting)
      children).1.emitEventLocked "waiting-children" (some waiting) (some .active) now [])
    stored.id now
  rw [board_of_tables emitted, filled] at ends
  exact ends

theorem fansOut_addFlowChildrenLocked (find : Find) (s : InMemoryJobQueueState)
    (lockToken : JobLockToken) (records : ChildRecords parentId children) (now : DateTime)
    : s.FansOut parentId lockToken children now
        (s.addFlowChildrenLocked find parentId lockToken children now).1.board := by
  unfold addFlowChildrenLocked
  split
  · exact .refused
  · next parent accepted =>
      obtain ⟨found, active, token⟩ := requireFanOutParent_ok accepted
      split
      · exact .refused
      · next duplicated accepted =>
          have attachable := attachable_of_ok accepted
          simp only
          generalize run
            : FlowDeduplication.addChildren find now false duplicated
              { state := s, childIds := [], flowDeduplicationIds := ∅ } children = outcome
          obtain ⟨d, result⟩ := outcome
          obtain ⟨⟨kept, sifts⟩, success⟩ := facts_of_addChildren records attachable rfl rfl rfl run
          cases result with
          | error error => exact .sifted sifts
          | ok =>
              have facts := success rfl
              simp only
              split
              · exact .sifted sifts
              · next checked =>
                  obtain ⟨uncarried, singly⟩ := checkFlowRepeatKeys_ok checked
                  obtain ⟨old, shown, same⟩ := sifts.retimes.card_after (board_cards_of_get found)
                  obtain ⟨stored, storedFound, rfl⟩ := board_cards_some shown
                  have storedId : stored.id = parentId := JobMap.get_id storedFound
                  have sameChildren := congrArg Card.childIds same
                  simp only [Card.untimed, Job.card] at sameChildren
                  have gathers := facts.gathers records attachable
                    (fun child member key own => (uncarried child member key own).2) singly
                    FlowDeduplication.lists_retained
                  rw [← sameChildren] at gathers
                  have ends := ends_fanOut stored facts attachable.submitted records.distinct
                  rw [storedId] at ends
                  simp only [storedFound]
                  exact .fannedOut (board_leased_iff.mpr ⟨parent, found, active, token⟩) shown
                    gathers ends

/-- A dynamic fan-out, with the records of the children. -/
theorem fansOut_addFlowChildrenAt (cron : Cron) (find : Find) (queue : QueueName)
    (s : InMemoryJobQueueState) (parentId : JobId) (lockToken : JobLockToken)
    (children : List (JobSpec × JobId)) (now : DateTime)
    : let childJobs := flowChildJobs queue parentId children now
      (s.addFlowChildrenAt cron find queue parentId lockToken children now).1.board = s.board
        ∨ ChildRecords parentId childJobs
          ∧ s.FansOut parentId lockToken childJobs now
              (s.addFlowChildrenAt cron find queue parentId lockToken children now).1.board := by
  intro childJobs
  unfold addFlowChildrenAt
  split
  · exact .inl rfl
  · split
    · exact .inl rfl
    · simp only
      split
      · exact .inl rfl
      · next valid =>
          obtain ⟨distinct, apart⟩ := rejectDuplicateJobIds_ok valid
          have records : ChildRecords parentId childJobs :=
            childRecords_flowChildJobs distinct
              (fun member => apart parentId member (Finset.mem_singleton_self parentId))
          exact .inr ⟨records, fansOut_addFlowChildrenLocked find s lockToken records now⟩

end InMemoryJobQueueState

end Lane
