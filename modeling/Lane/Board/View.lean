import Lane.Board.Card

/-! The board of a queue state, and what the bookkeeping under the lock does to it. -/

namespace Lane

namespace InMemoryJobQueueState

/-- The tables of a state that the board shows. -/
def tables (s : InMemoryJobQueueState)
    : JobMap × HashMap String Job × HashMap String JobFlow × Finset (String × JobId) :=
  (s.jobs, s.deduplicationNext, s.deduplicationNextFlows, s.releasedDeduplicationOwners)

/-- The board of a state. -/
def board (s : InMemoryJobQueueState) : Board :=
  { cards := fun id => (s.jobs.get id).map (Job.card s.releasedDeduplicationOwners)
    next := fun deduplicationId => s.deduplicationNext.lookup deduplicationId
    nextFlows := fun deduplicationId => s.deduplicationNextFlows.lookup deduplicationId }

variable {s t : InMemoryJobQueueState} {id : JobId} {job old : Job} {card : Card}

/-- States with the same tables show the same board. -/
theorem board_of_tables (same : t.tables = s.tables) : t.board = s.board := by
  simp only [tables, Prod.mk.injEq] at same
  obtain ⟨jobs, next, flows, released⟩ := same
  simp only [board, jobs, next, flows, released]

/-- States with the same tables retain the same records. -/
theorem jobs_of_tables (same : t.tables = s.tables) : t.jobs = s.jobs :=
  congrArg Prod.fst same

@[simp] theorem board_next (s : InMemoryJobQueueState) (deduplicationId : String)
    : s.board.next deduplicationId = s.deduplicationNext.lookup deduplicationId := rfl

@[simp] theorem board_nextFlows (s : InMemoryJobQueueState) (deduplicationId : String)
    : s.board.nextFlows deduplicationId = s.deduplicationNextFlows.lookup deduplicationId :=
  rfl

/-- A retained record shows its card. -/
theorem board_cards_of_get (found : s.jobs.get id = some job)
    : s.board.cards id = some (job.card s.releasedDeduplicationOwners) := by
  simp [board, found]

/-- A card on the board belongs to a retained record. -/
theorem board_cards_some (shown : s.board.cards id = some card)
    : ∃ job, s.jobs.get id = some job ∧ job.card s.releasedDeduplicationOwners = card := by
  simpa [board] using shown

@[simp] theorem board_cards_none : s.board.cards id = none ↔ s.jobs.get id = none := by
  simp [board]

/-- A retained record is unfinished on the board when its state is not terminal. -/
theorem board_unfinished_of_get (found : s.jobs.get id = some job)
    (unfinished : job.state.isTerminal = false)
    : s.board.Unfinished id :=
  ⟨_, board_cards_of_get found, by simpa [Job.card] using unfinished⟩

-----------------------------------------------------------------------------------------
-- Bookkeeping that the board does not show
-----------------------------------------------------------------------------------------

@[simp] theorem trimEventsLocked_tables (s : InMemoryJobQueueState) (maxLen : Nat)
    : (s.trimEventsLocked maxLen).1.tables = s.tables := by
  unfold trimEventsLocked
  split <;> rfl

@[simp] theorem emitEventLocked_tables (s : InMemoryJobQueueState) (event : String)
    (job : Option Job) (prev : Option JobState) (timestamp : DateTime)
    (fields : List (String × Value))
    : (s.emitEventLocked event job prev timestamp fields).tables = s.tables := by
  unfold emitEventLocked
  rw [trimEventsLocked_tables]
  rfl

@[simp] theorem emitJobCreatedEventsLocked_tables (s : InMemoryJobQueueState) (job : Job)
    (now : DateTime)
    : (s.emitJobCreatedEventsLocked job now).tables = s.tables := by
  simp [emitJobCreatedEventsLocked]

@[simp] theorem emitRetriesExhaustedEventLocked_tables (s : InMemoryJobQueueState)
    (job : Job) (timestamp : DateTime)
    : (s.emitRetriesExhaustedEventLocked job timestamp).tables = s.tables := by
  simp [emitRetriesExhaustedEventLocked]

@[simp] theorem emitRemovedEventLocked_tables (s : InMemoryJobQueueState) (job : Job)
    (timestamp : DateTime)
    : (s.emitRemovedEventLocked job timestamp).tables = s.tables := by
  simp [emitRemovedEventLocked]

@[simp] theorem emitDuplicatedEventLocked_tables (s : InMemoryJobQueueState) (job : Job)
    (timestamp : DateTime)
    : (s.emitDuplicatedEventLocked job timestamp).tables = s.tables := by
  simp [emitDuplicatedEventLocked]

@[simp] theorem emitCleanedEventLocked_tables (s : InMemoryJobQueueState) (count : Nat)
    (timestamp : DateTime)
    : (s.emitCleanedEventLocked count timestamp).tables = s.tables := by
  simp [emitCleanedEventLocked]

@[simp] theorem emitDeduplicatedEventsLocked_tables (s : InMemoryJobQueueState)
    (owner candidate : Job) (timestamp : DateTime)
    : (s.emitDeduplicatedEventsLocked owner candidate timestamp).tables = s.tables := by
  unfold emitDeduplicatedEventsLocked
  split
  · rfl
  · simp [emitDeduplicationEventsLocked]

@[simp] theorem emitReplacedDeduplicatedOwnerEventsLocked_tables
    (s : InMemoryJobQueueState) (replacement removedOwner : Job) (timestamp : DateTime)
    : (s.emitReplacedDeduplicatedOwnerEventsLocked replacement removedOwner
        timestamp).tables = s.tables := by
  unfold emitReplacedDeduplicatedOwnerEventsLocked
  split
  · rfl
  · simp [emitDeduplicationEventsLocked]

@[simp] theorem emitDrainedEventIfNeededLocked_tables (s : InMemoryJobQueueState)
    (timestamp : DateTime)
    : (s.emitDrainedEventIfNeededLocked timestamp).tables = s.tables := by
  unfold emitDrainedEventIfNeededLocked
  simp only
  split
  · simp
  · rfl

@[simp] theorem nextWaitingSequence_tables (s : InMemoryJobQueueState)
    : s.nextWaitingSequence.1.tables = s.tables := rfl

@[simp] theorem updateIndex_tables (s : InMemoryJobQueueState) (parentId : JobId)
    (update : InMemoryFlowDependencyIndex → InMemoryFlowDependencyIndex)
    : (s.updateIndex parentId update).tables = s.tables := rfl

@[simp] theorem clearChildDependencySideIndexLocked_tables (s : InMemoryJobQueueState)
    (parentId childId : JobId)
    : (s.clearChildDependencySideIndexLocked parentId childId).1.tables = s.tables := by
  unfold clearChildDependencySideIndexLocked
  split
  · rfl
  · simp only
    repeat' split
    all_goals rfl

@[simp] theorem recordTerminalChildDependencyLocked_tables (s : InMemoryJobQueueState)
    (parentId : JobId) (child : Job)
    : (s.recordTerminalChildDependencyLocked parentId child).tables = s.tables := by
  unfold recordTerminalChildDependencyLocked
  split
  · rfl
  · split
    · rfl
    · split
      · rfl
      · split
        · rfl
        · split
          · rfl
          · split <;> simp
      · rfl

/-- Recording a child of an optional parent leaves the tables alone. -/
@[simp] theorem recordTerminalChild_tables (s : InMemoryJobQueueState)
    (parentId : Option JobId) (child : Job)
    : (match parentId with
        | none => s
        | some parentId => s.recordTerminalChildDependencyLocked parentId child).tables
      = s.tables := by
  cases parentId <;> simp

-----------------------------------------------------------------------------------------
-- Writing one record
-----------------------------------------------------------------------------------------

/-- Storing a record puts its card. -/
theorem board_setJob (s : InMemoryJobQueueState) (job : Job)
    : (s.setJob job).board
      = s.board.put job.id (job.card s.releasedDeduplicationOwners) := by
  ext1
  · funext other
    simp only [board, setJob, Board.put_cards, JobMap.get_insert]
    split <;> rfl
  · rfl
  · rfl

/-- A write onto states with the same tables shows the same board. -/
theorem board_setJob_of_tables (same : t.tables = s.tables) (job : Job)
    : (t.setJob job).board = (s.setJob job).board := by
  simp only [tables, Prod.mk.injEq] at same
  obtain ⟨jobs, next, flows, released⟩ := same
  simp only [board, setJob, jobs, next, flows, released]

/-- An update that the card does not show leaves the board alone. -/
theorem board_setJob_same (found : s.jobs.get id = some old) (sameId : job.id = old.id)
    (same : ∀ released, job.card released = old.card released)
    : (s.setJob job).board = s.board := by
  rw [board_setJob, sameId, JobMap.get_id found, same]
  ext1
  · funext other
    rw [Board.put_cards]
    split
    · next equal => rw [equal, board_cards_of_get found]
    · rfl
  · rfl
  · rfl

/-- A change of state without a lease moves the card. -/
theorem board_setJob_move {phase : Phase} (found : s.jobs.get id = some old)
    (sameId : job.id = old.id)
    (moved : ∀ released, job.card released = (old.card released).moved phase)
    : (s.setJob job).board = s.board.move id phase := by
  rw [board_setJob, sameId, JobMap.get_id found, moved,
    Board.move_eq_put (board_cards_of_get found)]

-----------------------------------------------------------------------------------------
-- Removal and retention
-----------------------------------------------------------------------------------------

/-- Forgetting a release only changes the card of the released job itself. -/
theorem card_erase_of_ne {released : Finset (String × JobId)} {deduplicationId : String}
    (different : job.id ≠ id)
    : job.card (released.erase (deduplicationId, id)) = job.card released := by
  simp only [Job.card, deduplicationOwnerReleased, Finset.mem_erase, ne_eq, Prod.mk.injEq,
    different, and_false, not_false_eq_true, true_and]

/-- A job that is not retained leaves no trace on the board when its release is forgotten. -/
theorem board_forget_of_absent (absent : s.jobs.get job.id = none)
    : (s.forgetReleasedDeduplicationOwnerLocked job).board = s.board := by
  unfold forgetReleasedDeduplicationOwnerLocked
  split
  · rfl
  · ext1
    · funext other
      simp only [board]
      cases found : s.jobs.get other with
      | none => rfl
      | some stored =>
          have different : stored.id ≠ job.id := by
            rw [JobMap.get_id found]
            rintro rfl
            rw [absent] at found
            cases found
          simp only [Option.map_some]
          rw [card_erase_of_ne different]
    · rfl
    · rfl

/-- Removing a record takes its card off the board. -/
theorem board_removeJobRecordLocked (s : InMemoryJobQueueState) (jobId : JobId)
    : (s.removeJobRecordLocked jobId).1.board = s.board.without {jobId} := by
  unfold removeJobRecordLocked
  split
  · next absent =>
      ext1
      · funext other
        by_cases same : other = jobId
        · subst same
          rw [Board.without_cards_of_mem (Set.mem_singleton other)]
          exact board_cards_none.mpr absent
        · rw [Board.without_cards_of_notMem (by simpa using same)]
      · rfl
      · rfl
  · next removed found =>
      rw [board_forget_of_absent]
      · ext1
        · funext other
          by_cases same : other = jobId
          · subst same
            rw [Board.without_cards_of_mem (Set.mem_singleton other)]
            simp [board, JobMap.get_remove]
          · rw [Board.without_cards_of_notMem (by simpa using same)]
            simp [board, JobMap.get_remove, same]
        · rfl
        · rfl
      · rw [JobMap.get_id found]
        simp [JobMap.get_remove]

/-- Removing several records takes their cards off the board, by induction on the ids. -/
theorem board_removeJobRecords (s : InMemoryJobQueueState) (jobIds : List JobId)
    : (s.removeJobRecords jobIds).board = s.board.without {id | id ∈ jobIds} := by
  induction jobIds generalizing s with
  | nil => simp [removeJobRecords]
  | cons jobId rest ih =>
      have unfolded
          : s.removeJobRecords (jobId :: rest)
            = (s.removeJobRecordLocked jobId).1.removeJobRecords rest := rfl
      rw [unfolded, ih, board_removeJobRecordLocked, Board.without_without]
      congr 1
      ext id
      simp

end InMemoryJobQueueState

/-- The board lost nothing but cards of finished jobs. -/
def Board.Pruned (b after : Board) : Prop :=
  ∃ ids : Set JobId, (∀ id ∈ ids, ¬ b.Unfinished id) ∧ after = b.without ids

namespace Board

variable {b middle after : Board}

theorem Pruned.refl (b : Board) : b.Pruned b := ⟨∅, by simp, by simp⟩

/-- Two prunings are one: what the first keeps has the same cards. -/
theorem Pruned.trans (first : b.Pruned middle) (second : middle.Pruned after)
    : b.Pruned after := by
  obtain ⟨ids, finished, rfl⟩ := first
  obtain ⟨more, later, rfl⟩ := second
  refine ⟨ids ∪ more, ?_, without_without⟩
  intro id member unfinished
  by_cases early : id ∈ ids
  · exact finished id early unfinished
  · obtain ⟨card, found, alive⟩ := unfinished
    refine later id (member.resolve_left early) ⟨card, ?_, alive⟩
    rw [without_cards_of_notMem early]
    exact found

/-- Pruning keeps the cards of unfinished jobs. -/
theorem Pruned.cards_of_unfinished {id : JobId} {card : Card} (pruned : b.Pruned after)
    (found : b.cards id = some card) (unfinished : card.phase.isTerminal = false)
    : after.cards id = some card := by
  obtain ⟨ids, finished, rfl⟩ := pruned
  rw [without_cards_of_notMem (fun member => finished id member ⟨card, found, unfinished⟩)]
  exact found

/-- Cards after a pruning were there before. -/
theorem Pruned.cards_some {id : JobId} {card : Card} (pruned : b.Pruned after)
    (found : after.cards id = some card)
    : b.cards id = some card := by
  obtain ⟨ids, finished, rfl⟩ := pruned
  exact (without_cards_some found).2

/-- Candidates are not pruned. -/
theorem Pruned.next (pruned : b.Pruned after)
    : after.next = b.next ∧ after.nextFlows = b.nextFlows := by
  obtain ⟨ids, finished, rfl⟩ := pruned
  exact ⟨rfl, rfl⟩

end Board

namespace InMemoryJobQueueState

variable {s : InMemoryJobQueueState}

/-- The finished jobs of a terminal state are finished on the board. -/
theorem not_unfinished_of_mem_finishedJobs {state : JobState} {entry : JobId × DateTime}
    (terminal : state.isTerminal = true) (member : entry ∈ s.finishedJobs state)
    : ¬ s.board.Unfinished entry.1 := by
  simp only [finishedJobs, List.mem_filterMap, List.mem_filter, Option.map_eq_some_iff] at member
  obtain ⟨job, ⟨stored, inState⟩, finishedAt, _, rfl⟩ := member
  rintro ⟨card, shown, unfinished⟩
  rw [board_cards_of_get (JobMap.mem_values.mp stored)] at shown
  obtain rfl := Option.some.inj shown
  have same : job.state = state := by simpa using inState
  simp [Job.card, same, terminal] at unfinished

theorem expiredJobIds_finished {state : JobState} {retention : JobRetention}
    {age : Duration} {now : DateTime} {id : JobId} (terminal : state.isTerminal = true)
    (member : id ∈ s.expiredJobIds state retention age now)
    : ¬ s.board.Unfinished id := by
  have sorted := List.mem_of_mem_take member
  obtain ⟨entry, inSorted, rfl⟩ := List.mem_map.mp sorted
  rw [List.mem_insertionSort] at inSorted
  exact not_unfinished_of_mem_finishedJobs terminal (List.mem_filter.mp inSorted).1

theorem surplusJobIds_finished {state : JobState} {count : Nat} {id : JobId}
    (terminal : state.isTerminal = true) (member : id ∈ s.surplusJobIds state count)
    : ¬ s.board.Unfinished id := by
  have sorted := List.mem_of_mem_drop member
  obtain ⟨entry, inSorted, rfl⟩ := List.mem_map.mp sorted
  rw [List.mem_insertionSort] at inSorted
  exact not_unfinished_of_mem_finishedJobs terminal inSorted

/-- Retention only prunes: both of its sweeps select finished jobs. -/
theorem pruned_applyFinishedRetentionLocked (s : InMemoryJobQueueState) {state : JobState}
    (terminal : state.isTerminal = true) (retention : JobRetention) (now : DateTime)
    : s.board.Pruned (s.applyFinishedRetentionLocked state retention now).board := by
  have byCount (aged : InMemoryJobQueueState) (count : Nat)
      : aged.board.Pruned (aged.removeJobRecords (aged.surplusJobIds state count)).board :=
    ⟨_, fun id member => surplusJobIds_finished terminal member, board_removeJobRecords aged _⟩
  have byAge (age : Duration)
      : s.board.Pruned (s.removeJobRecords (s.expiredJobIds state retention age now)).board :=
    ⟨_, fun id member => expiredJobIds_finished terminal member, board_removeJobRecords s _⟩
  unfold applyFinishedRetentionLocked
  cases retention.age <;> cases retention.count
  · exact .refl _
  · exact byCount s _
  · exact byAge _
  · exact (byAge _).trans (byCount _ _)

end InMemoryJobQueueState

end Lane
