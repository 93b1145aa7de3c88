import Lane.Board.Failures

/-! What one operation may do to jobs that it does not finish: which it removes, which parents it
checks for their release, and which jobs it may leave failed under which failure policy.
-/

namespace Lane

namespace Board

/-- Filling a plan leaves all owners besides its parent. -/
theorem Gathers.anchors {b : Board} {now : DateTime} {submitted : Bool} {parentId id : JobId}
    {children : List Job} {existingIds : List JobId} {p : FlowPlan} {parentCard : Card}
    {key : String} (gathers : b.Gathers now submitted parentId children existingIds p)
    (anchors : b.Anchors key id) (different : id ≠ parentId)
    : (p.filled parentId parentCard).Anchors key id := by
  obtain ⟨card, found, alive, own⟩ := gathers.sifts.retimes.anchors anchors
  rcases gathers.card_after found different with ⟨_, shown⟩ | ⟨_, shown⟩
  · exact ⟨card, shown, alive, own⟩
  · exact ⟨_, shown, alive, own⟩

theorem OwnerEnds.unfailed {b after : Board} {owner : Job} {now : DateTime} {admitted : List Job}
    (ends : b.OwnerEnds owner now admitted after)
    : ∀ job ∈ admitted, job.state.phase ≠ .failed := by
  intro job member failed
  have alive := ends.alive job member
  rw [failed] at alive
  cases alive

end Board

namespace InMemoryJobQueueState

/-- The jobs that an operation removes without finishing or replacing them. -/
def removedIds (find : Find) (s : InMemoryJobQueueState) : Op → List JobId
  | .remove jobId _ => s.removableIds jobId
  | .removeRepeat repeatKey _ => s.removableRepeatIds find repeatKey
  | .clean state grace limit now => s.cleanedIds state grace limit now
  | .drain includeDelayed _ => (s.drainableJobs find includeDelayed).map Job.id
  | .removeUnprocessedChildren parentId _ => s.unprocessedIds parentId
  | _ => []

/-- The operation checks whether the parent can be released. -/
inductive ChecksRelease (find : Find) (queue : QueueName) (s : InMemoryJobQueueState) (op : Op)
    (parentId : JobId)
    : Prop
  | removed {childId : JobId} (member : childId ∈ s.removedIds find op)
    (names : s.board.Names childId parentId)
  | emptied {now : DateTime} (same : op = .removeUnprocessedChildren parentId now)
  | detached {childId : JobId} {now : DateTime} (same : op = .removeChildDependency childId now)
    (names : s.board.Names childId parentId)
  | finished {now : DateTime} {job : Job} {flag : Bool} (finishes : s.Finishes op now job flag)
    (named : job.parentId = some parentId)
  | submitted {children : List Job} {now : DateTime}
    (submits : op.flowChildren queue = some (parentId, children, now))

/-- The job waits for its children while the operation runs. -/
inductive MayWait (queue : QueueName) (s : InMemoryJobQueueState) (op : Op) (id : JobId) : Prop
  | parked (parked : s.board.Parked id)
  | submitted {children : List Job} {now : DateTime}
    (submits : op.flowChildren queue = some (id, children, now))
  | entering {now : DateTime} {job : Job} (enters : s.MayEnter op now job) (same : job.id = id)

/-- The job lists the child while the operation runs. -/
inductive MayList (queue : QueueName) (s : InMemoryJobQueueState) (op : Op) (id childId : JobId)
    : Prop
  | listed (lists : s.board.Lists id childId)
  | submitted {children : List Job} {now : DateTime}
    (submits : op.flowChildren queue = some (id, children, now))
    (member : childId ∈ children.map Job.id)
  | entering {now : DateTime} {job : Job} (enters : s.MayEnter op now job)
    (lists
      : job.id = id ∧ childId ∈ job.childIds ∨ job.id = childId ∧ job.parentId = some id)

/-- The failure policy of a retained job, or of one that the operation may bring in. -/
inductive MayHold (queue : QueueName) (s : InMemoryJobQueueState) (op : Op) (id : JobId)
    (policy : FailurePolicy)
    : Prop
  | retained {card : Card} (found : s.board.cards id = some card) (same : card.policy = policy)
  | submitted {parentId : JobId} {children : List Job} {now : DateTime}
    (submits : op.flowChildren queue = some (parentId, children, now))
    (member : id = parentId ∨ id ∈ children.map Job.id)
  | entering {now : DateTime} {job : Job} (enters : s.MayEnter op now job) (same : job.id = id)
    (policed : failurePolicy job = policy)
  | generated (member : id ∈ op.generatedIds)

/-- The operation may leave the job failed under this policy: it has failed already, the
operation fails it for good, a job that the operation fails for good fails it as its parent,
or it waits for its children, is checked for its release, and a child with the policy to fail
its parent may have failed.
-/
inductive MayFail (find : Find) (queue : QueueName) (s : InMemoryJobQueueState) (op : Op)
    : JobId → FailurePolicy → Prop
  | failed {id : JobId} {card : Card} (found : s.board.cards id = some card)
    (phase : card.phase = .failed)
    : MayFail find queue s op id card.policy
  | ended {job : Job} (fails : s.FailsForGood op job)
    : MayFail find queue s op job.id (failurePolicy job)
  | reported {id : JobId} {job : Job} {policy : FailurePolicy} (fails : s.FailsForGood op job)
    (parent : Board.FailsParent job id) (held : s.MayHold queue op id policy)
    : MayFail find queue s op id policy
  | released {id childId : JobId} {policy : FailurePolicy}
    (checks : s.ChecksRelease find queue op id) (waits : s.MayWait queue op id)
    (lists : s.MayList queue op id childId)
    (below : MayFail find queue s op childId .failParent)
    (held : s.MayHold queue op id policy)
    : MayFail find queue s op id policy

/-- A card that is given back, or that finishes as the operation allows. -/
inductive Moves (find : Find) (queue : QueueName) (s : InMemoryJobQueueState) (op : Op)
    (id : JobId) (card : Card)
    : Card → Prop
  | ready : Moves find queue s op id card (card.moved .ready)
  | completed (ends : s.Ends op id) : Moves find queue s op id card (card.moved .completed)
  | failed (fails : s.MayFail find queue op id card.policy)
    : Moves find queue s op id card (card.moved .failed)

/-- A board in the course of an operation: its failed, waiting and listed jobs are those that
the operation allows, and an unfinished job that is neither finished nor removed is still
there unless it may fail.
-/
structure Standing (find : Find) (queue : QueueName) (s : InMemoryJobQueueState) (op : Op)
    (b : Board)
    : Prop where
  held : ∀ {id card}, b.cards id = some card → s.MayHold queue op id card.policy
  failed
    : ∀ {id card},
        b.cards id = some card
        → card.phase = .failed
        → s.MayFail find queue op id card.policy
  waits
    : ∀ {id card}, b.cards id = some card → card.phase = .parked → s.MayWait queue op id
  lists
    : ∀ {id childId card},
        b.cards id = some card
        → childId ∈ card.childIds
        → s.MayList queue op id childId
  stays
    : ∀ {key id},
        s.board.Anchors key id
        → ¬ s.Ends op id
        → id ∉ s.removedIds find op
        → b.Anchors key id ∨ ∃ policy, s.MayFail find queue op id policy

variable {find : Find} {queue : QueueName} {s : InMemoryJobQueueState} {op : Op}
  {b after : Board} {id parentId : JobId} {phase : Phase} {now : DateTime}

-----------------------------------------------------------------------------------------
-- Cards that move and leave
-----------------------------------------------------------------------------------------

/-- Before the operation every card stands. -/
theorem standing_start : s.Standing find queue op s.board where
  held found := .retained found rfl
  failed found phase := .failed found phase
  waits found phase := .parked ⟨_, found, phase⟩
  lists found member := .listed ⟨_, found, member⟩
  stays anchors _ _ := .inl anchors

namespace Standing

/-- Cards leave that do not anchor anything. -/
theorem without {ids : Set JobId} (standing : s.Standing find queue op b)
    (spares : ∀ id ∈ ids, b.Unfinished id → id ∈ s.removedIds find op ∨ s.Ends op id)
    : s.Standing find queue op (b.without ids) where
  held found := standing.held (Board.without_cards_some found).2
  failed found := standing.failed (Board.without_cards_some found).2
  waits found := standing.waits (Board.without_cards_some found).2
  lists found := standing.lists (Board.without_cards_some found).2
  stays := by
    intro key id anchors alive kept
    refine (standing.stays anchors alive kept).imp_left ?_
    rintro ⟨card, found, unfinished, own⟩
    refine ⟨card, ?_, unfinished, own⟩
    rw [Board.without_cards_of_notMem]
    · exact found
    · intro member
      rcases spares id member ⟨card, found, unfinished⟩ with removed | ends
      · exact kept removed
      · exact alive ends

theorem pruned (standing : s.Standing find queue op b) (pruned : b.Pruned after)
    : s.Standing find queue op after := by
  obtain ⟨ids, finished, rfl⟩ := pruned
  exact standing.without (fun id member unfinished => absurd unfinished (finished id member))

/-- Cards move, each in a way that the operation allows. -/
theorem moves (standing : s.Standing find queue op b)
    (moves
      : ∀ id,
          after.cards id = b.cards id
          ∨ ∃ old card,
              b.cards id = some old
              ∧ after.cards id = some card
              ∧ s.Moves find queue op id old card)
    : s.Standing find queue op after := by
  have before {id : JobId} {card : Card} (found : after.cards id = some card)
      : ∃ old,
          b.cards id = some old
          ∧ (card = old ∨ s.Moves find queue op id old card) := by
    rcases moves id with same | ⟨old, moved, shown, known, allowed⟩
    · exact ⟨card, same ▸ found, .inl rfl⟩
    · rw [found] at known
      obtain rfl := Option.some.inj known
      exact ⟨old, shown, .inr allowed⟩
  refine ⟨?_, ?_, ?_, ?_, ?_⟩
  · intro id card found
    obtain ⟨old, shown, rfl | allowed⟩ := before found
    · exact standing.held shown
    · have held := standing.held shown
      cases allowed <;> exact held
  · intro id card found failed
    obtain ⟨old, shown, rfl | allowed⟩ := before found
    · exact standing.failed shown failed
    · cases allowed with
      | ready => cases failed
      | completed => cases failed
      | failed fails => exact fails
  · intro id card found parked
    obtain ⟨old, shown, rfl | allowed⟩ := before found
    · exact standing.waits shown parked
    · cases allowed <;> cases parked
  · intro id childId card found member
    obtain ⟨old, shown, rfl | allowed⟩ := before found
    · exact standing.lists shown member
    · cases allowed <;> exact standing.lists shown member
  · intro key id anchors unended kept
    rcases standing.stays anchors unended kept with ⟨card, found, unfinished, own⟩ | mayFail
    · rcases moves id with same | ⟨old, moved, shown, known, allowed⟩
      · exact .inl ⟨card, same.trans found, unfinished, own⟩
      · rw [found] at shown
        obtain rfl := Option.some.inj shown
        cases allowed with
        | ready => exact .inl ⟨_, known, rfl, own⟩
        | completed ends => exact absurd ends unended
        | failed fails => exact .inr ⟨card.policy, fails⟩
    · exact .inr mayFail

theorem move (standing : s.Standing find queue op b)
    (allowed : ∀ card, b.cards id = some card → s.Moves find queue op id card (card.moved phase))
    : s.Standing find queue op (b.move id phase) := by
  refine standing.moves fun other => ?_
  rw [Board.move_cards]
  split
  · next same =>
      subst same
      cases found : b.cards other with
      | none => exact .inl rfl
      | some card => exact .inr ⟨card, _, rfl, rfl, allowed card found⟩
  · exact .inl rfl

theorem ready (standing : s.Standing find queue op b)
    : s.Standing find queue op (b.move id .ready) :=
  standing.move (fun _ _ => .ready)

/-- The jobs of a sweep that fail are failed for good, and the others are given back. -/
theorem sweep {failed ready : List JobId} (standing : s.Standing find queue op b)
    (fails
      : ∀ id ∈ failed, ∀ card, b.cards id = some card → s.MayFail find queue op id card.policy)
    : s.Standing find queue op (b.sweep failed ready) := by
  refine standing.moves fun id => ?_
  simp only [Board.sweep]
  cases found : b.cards id with
  | none => exact .inl (by simp)
  | some card =>
      split
      · next member => exact .inr ⟨card, _, rfl, rfl, .failed (fails id member card found)⟩
      · split
        · exact .inr ⟨card, _, rfl, rfl, .ready⟩
        · exact .inl rfl

/-- A child is taken off its parent. -/
theorem detached {childId : JobId} (standing : s.Standing find queue op b)
    : s.Standing find queue op ((b.unlist parentId childId).orphan childId) := by
  refine ⟨?_, ?_, ?_, ?_, ?_⟩
  · intro id card found
    obtain ⟨old, shown, rfl⟩ := Board.detached_card_before found
    have held := standing.held shown
    exact held
  · intro id card found failed
    obtain ⟨old, shown, rfl⟩ := Board.detached_card_before found
    have mayFail := standing.failed shown failed
    exact mayFail
  · intro id card found parked
    obtain ⟨old, shown, rfl⟩ := Board.detached_card_before found
    exact standing.waits shown parked
  · intro id other card found member
    obtain ⟨old, shown, rfl⟩ := Board.detached_card_before found
    refine standing.lists shown ?_
    dsimp only at member
    split at member
    · exact (List.mem_filter.mp member).1
    · exact member
  · intro key id anchors unended kept
    refine (standing.stays anchors unended kept).imp_left ?_
    rintro ⟨card, found, alive, own⟩
    have unlisted
        : ∃ card,
            (b.unlist parentId childId).cards id = some card
            ∧ card.phase.isTerminal = false
            ∧ card.ownerKey = some key := by
      rw [Board.unlist_cards]
      split
      · next same =>
          subst same
          rw [found]
          exact ⟨_, rfl, alive, own⟩
      · exact ⟨card, found, alive, own⟩
    obtain ⟨middle, known, sameAlive, sameOwn⟩ := unlisted
    unfold Board.Anchors
    rw [Board.orphan_cards]
    split
    · next same =>
        subst same
        rw [known]
        exact ⟨_, rfl, sameAlive, sameOwn⟩
    · exact ⟨middle, known, sameAlive, sameOwn⟩

-----------------------------------------------------------------------------------------
-- What is reported to parents
-----------------------------------------------------------------------------------------

/-- A release that the operation checks. -/
theorem released (standing : s.Standing find queue op b)
    (checks : s.ChecksRelease find queue op parentId) (released : b.Released parentId after)
    : s.Standing find queue op after := by
  cases released with
  | kept => exact standing
  | deferred => exact standing.ready
  | resolved => exact standing.ready
  | failed found parked finished failure pruned =>
      obtain ⟨childId, member, child, shown, failed, policy⟩ := failure
      have below := standing.failed shown failed
      rw [policy] at below
      refine (standing.move ?_).pruned pruned
      intro card known
      exact .failed (.released checks (standing.waits found parked) (standing.lists found member)
        below (standing.held known))

theorem releasedEach {parentIds : List JobId} (standing : s.Standing find queue op b)
    (checks : ∀ parentId ∈ parentIds, s.ChecksRelease find queue op parentId)
    (released : Board.ReleasedEach b parentIds after)
    : s.Standing find queue op after := by
  induction released with
  | nil => exact standing
  | cons first _ ih =>
      refine ih (standing.released (checks _ List.mem_cons_self) first) ?_
      exact fun parentId member => checks parentId (List.mem_cons_of_mem _ member)

/-- The report of a job that the operation fails for good, by cases on its failure policy. -/
theorem failureReported {failed : Job} (standing : s.Standing find queue op b)
    (fails : s.FailsForGood op failed) (reported : b.FailureReported failed after)
    : s.Standing find queue op after := by
  unfold Board.FailureReported at reported
  cases named : failed.parentId with
  | none =>
      rw [named] at reported
      exact reported ▸ standing
  | some parentId =>
      rw [named] at reported
      simp only at reported
      cases policy : failurePolicy failed with
      | deferParent =>
          rw [policy] at reported
          rcases reported with ⟨_, rfl⟩ | ⟨_, rfl⟩
          · exact standing
          · exact standing.ready
      | continueParent =>
          rw [policy] at reported
          rcases reported with ⟨_, rfl⟩ | ⟨_, rfl⟩
          · exact standing
          · exact standing.ready
      | releaseDependency =>
          rw [policy] at reported
          obtain ⟨now, finishes⟩ := fails.finishes
          exact standing.released (.finished finishes named) reported
      | failParent =>
          rw [policy] at reported
          rcases reported with ⟨_, rfl⟩ | ⟨_, pruned⟩
          · exact standing
          · refine (standing.move ?_).pruned pruned
            exact fun card found => .failed (.reported fails ⟨named, policy⟩ (standing.held found))

theorem failuresReported {failures : List Job} (standing : s.Standing find queue op b)
    (fails : ∀ failed ∈ failures, s.FailsForGood op failed)
    (reported : Board.FailuresReported b failures after)
    : s.Standing find queue op after := by
  induction reported with
  | nil => exact standing
  | cons first _ ih =>
      refine ih (standing.failureReported (fails _ List.mem_cons_self) first) ?_
      exact fun failed member => fails failed (List.mem_cons_of_mem _ member)

-----------------------------------------------------------------------------------------
-- Jobs that enter
-----------------------------------------------------------------------------------------

/-- The end of an owner that admits what the operation may admit. -/
theorem ownerEnds {owner : Job} {admitted : List Job} (standing : s.Standing find queue op b)
    (ends : b.OwnerEnds owner now admitted after)
    (enters : ∀ job ∈ admitted, s.MayEnter op now job)
    : s.Standing find queue op after := by
  refine ⟨?_, ?_, ?_, ?_, ?_⟩
  · intro id card found
    rcases ends.card_before found with ⟨old, shown, rfl | ⟨_, _, _, _, rfl⟩⟩
      | ⟨job, member, same, rfl, _⟩
    · exact standing.held shown
    · have held := standing.held shown
      exact held
    · exact .entering (enters job member) same rfl
  · intro id card found failed
    rcases ends.card_before found with ⟨old, shown, rfl | ⟨_, _, _, _, rfl⟩⟩
      | ⟨job, member, same, rfl, _⟩
    · exact standing.failed shown failed
    · have mayFail := standing.failed shown failed
      exact mayFail
    · exact absurd failed (ends.unfailed job member)
  · intro id card found parked
    rcases ends.card_before found with ⟨old, shown, rfl | ⟨_, _, _, _, rfl⟩⟩
      | ⟨job, member, same, rfl, _⟩
    · exact standing.waits shown parked
    · exact standing.waits shown parked
    · exact .entering (enters job member) same
  · intro id childId card found member
    rcases ends.card_before found with ⟨old, shown, rfl | ⟨next, entered, named, _, rfl⟩⟩
      | ⟨job, entered, same, rfl, _⟩
    · exact standing.lists shown member
    · rcases List.mem_append.mp member with before | isNext
      · exact standing.lists shown before
      · obtain rfl := List.mem_singleton.mp isNext
        exact .entering (enters next entered) (.inr ⟨rfl, named⟩)
    · exact .entering (enters job entered) (.inl ⟨same, member⟩)
  · intro key id anchors unended kept
    refine (standing.stays anchors unended kept).imp_left ?_
    rintro ⟨card, found, unfinished, own⟩
    obtain ⟨_, shown, more, rfl⟩ := ends.card_after found
    exact ⟨_, shown, unfinished, own⟩

/-- Owners that end in turn, by induction on them. -/
theorem ownersEnd {owners : List Job} (stage : s.Stage op b) (standing : s.Standing find queue op b)
    (finishes : ∀ owner ∈ owners, ∃ removes, s.Finishes op now owner removes)
    (ends : Board.OwnersEnd now b owners after)
    : s.Standing find queue op after := by
  induction ends with
  | nil => exact standing
  | cons ends pruned _ ih =>
      obtain ⟨removes, first⟩ := finishes _ List.mem_cons_self
      refine ih ((stage.ownerEnds ends).pruned pruned) ?_
        (fun owner member => finishes owner (List.mem_cons_of_mem _ member))
      exact (standing.ownerEnds ends (stage.mayEnter first ends)).pruned pruned

/-- The next occurrence of a repeat job enters under a generated id. -/
theorem next {next : Job} (standing : s.Standing find queue op b)
    (generated : next.id ∈ op.generatedIds) (absent : s.board.cards next.id = none)
    (ready : next.state.phase = .ready) (childless : next.childIds = [])
    : s.Standing find queue op (b.put next.id next.freshCard) := by
  refine ⟨?_, ?_, ?_, ?_, ?_⟩
  · intro id card found
    rw [Board.put_cards] at found
    split at found
    · next same => exact .generated (same ▸ generated)
    · exact standing.held found
  · intro id card found failed
    rw [Board.put_cards] at found
    split at found
    · obtain rfl := Option.some.inj found
      cases ready.symm.trans failed
    · exact standing.failed found failed
  · intro id card found parked
    rw [Board.put_cards] at found
    split at found
    · obtain rfl := Option.some.inj found
      cases ready.symm.trans parked
    · exact standing.waits found parked
  · intro id childId card found member
    rw [Board.put_cards] at found
    split at found
    · obtain rfl := Option.some.inj found
      rw [show next.freshCard.childIds = [] from childless] at member
      cases member
    · exact standing.lists found member
  · intro key id anchors unended kept
    have different : id ≠ next.id := by
      rintro rfl
      obtain ⟨card, found, _⟩ := anchors
      rw [absent] at found
      cases found
    refine (standing.stays anchors unended kept).imp_left ?_
    rintro ⟨card, found, unfinished, own⟩
    exact ⟨card, by rw [Board.put_cards_ne different, found], unfinished, own⟩

-----------------------------------------------------------------------------------------
-- Submitted flows
-----------------------------------------------------------------------------------------

/-- A deduplication loop leaves all but expiries. -/
theorem retimes (standing : s.Standing find queue op b) (retimes : b.Retimes after)
    : s.Standing find queue op after := by
  refine ⟨?_, ?_, ?_, ?_, ?_⟩
  · intro id card found
    obtain ⟨old, shown, same⟩ := retimes.card_before found
    have policy := congrArg Card.policy same
    change card.policy = old.policy at policy
    rw [policy]
    exact standing.held shown
  · intro id card found failed
    obtain ⟨old, shown, same⟩ := retimes.card_before found
    have policy := congrArg Card.policy same
    change card.policy = old.policy at policy
    rw [policy]
    exact standing.failed shown ((congrArg Card.phase same).symm.trans failed)
  · intro id card found parked
    obtain ⟨old, shown, same⟩ := retimes.card_before found
    exact standing.waits shown ((congrArg Card.phase same).symm.trans parked)
  · intro id childId card found member
    obtain ⟨old, shown, same⟩ := retimes.card_before found
    have children := congrArg Card.childIds same
    change card.childIds = old.childIds at children
    exact standing.lists shown (children ▸ member)
  · intro key id anchors unended kept
    exact (standing.stays anchors unended kept).imp_left retimes.anchors

/-- A filled plan: its parent waits for the children that it lists, and no child enters failed. -/
theorem filled {submitted : Bool} {children : List Job} {existingIds : List JobId} {p : FlowPlan}
    {parentCard : Card} (standing : s.Standing find queue op p.sifted)
    (submits : op.flowChildren queue = some (parentId, children, now))
    (gathers : s.board.Gathers now submitted parentId children existingIds p)
    (listed : parentCard.childIds = p.childIds)
    (existing : ∀ childId ∈ existingIds, s.MayList queue op parentId childId)
    (fails : parentCard.phase = .failed → s.MayFail find queue op parentId parentCard.policy)
    (stays : ∀ {key}, s.board.Anchors key parentId → (p.filled parentId parentCard).Anchors key parentId)
    : s.Standing find queue op (p.filled parentId parentCard) := by
  refine ⟨?_, ?_, ?_, ?_, ?_⟩
  · intro id card found
    rcases gathers.card_before found with
      ⟨same, rfl⟩ | ⟨old, shown, _, ⟨_, rfl⟩ | ⟨_, rfl⟩⟩ | ⟨child, inserted, rfl, rfl⟩
    · exact .submitted submits (.inl same)
    · exact standing.held shown
    · have held := standing.held shown
      exact held
    · exact .submitted submits (.inr (List.mem_map_of_mem (gathers.inserted child inserted).1))
  · intro id card found failed
    rcases gathers.card_before found with
      ⟨same, rfl⟩ | ⟨old, shown, _, ⟨_, rfl⟩ | ⟨_, rfl⟩⟩ | ⟨child, inserted, rfl, rfl⟩
    · exact same ▸ fails failed
    · exact standing.failed shown failed
    · have mayFail := standing.failed shown failed
      exact mayFail
    · have ready := gathers.records.ready child (gathers.inserted child inserted).1
      cases ready.symm.trans failed
  · intro id card found parked
    rcases gathers.card_before found with
      ⟨same, rfl⟩ | ⟨old, shown, _, ⟨_, rfl⟩ | ⟨_, rfl⟩⟩ | ⟨child, inserted, rfl, rfl⟩
    · exact same ▸ .submitted submits
    · exact standing.waits shown parked
    · exact standing.waits shown parked
    · have ready := gathers.records.ready child (gathers.inserted child inserted).1
      cases ready.symm.trans parked
  · intro id childId card found member
    rcases gathers.card_before found with
      ⟨rfl, rfl⟩ | ⟨old, shown, _, ⟨_, rfl⟩ | ⟨_, rfl⟩⟩ | ⟨child, inserted, rfl, rfl⟩
    · rw [listed] at member
      rcases gathers.listedFrom childId member with
        before | attached | ⟨child, inserted, rfl⟩ | ⟨key, child, kept, rfl⟩
      · exact existing childId before
      · exact .submitted submits (gathers.attached childId attached).1
      · exact .submitted submits (List.mem_map_of_mem (gathers.inserted child inserted).1)
      · exact .submitted submits (List.mem_map_of_mem (gathers.sifts.keptChild kept).1)
    · exact standing.lists shown member
    · have listed := standing.lists shown member
      exact listed
    · have childless := gathers.records.childless child (gathers.inserted child inserted).1
      rw [show child.freshCard.childIds = [] from childless] at member
      cases member
  · intro key id anchors unended kept
    by_cases same : id = parentId
    · subst same
      exact .inl (stays anchors)
    · exact .inl (gathers.anchors anchors same)

end Standing

end InMemoryJobQueueState

end Lane
