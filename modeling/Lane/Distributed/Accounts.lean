import Lane.Distributed.Pool
import Mathlib.Algebra.Order.Group.Multiset
import Mathlib.Tactic.Abel

/-! What the events and the tasks of a worker pool say about one partition, and the accounts that
every segment keeps: of the channel, of the commands that were taken from it, of the results and
of the workers.
-/

namespace Lane

-----------------------------------------------------------------------------------------
-- One partition in the events and in the tasks
-----------------------------------------------------------------------------------------

namespace PoolEvent

variable (partitionId : PartitionId)

def enqueuedTo : PoolEvent → List CommandEnvelope
  | .enqueued envelope => if envelope.partitionId = partitionId then [envelope] else []
  | _ => []

def dequeuedFrom : PoolEvent → List CommandEnvelope
  | .dequeued envelope => if envelope.partitionId = partitionId then [envelope] else []
  | _ => []

def finishedIn : PoolEvent → List (CommandEnvelope × CommandResult)
  | .finished envelope result =>
      if envelope.partitionId = partitionId then [(envelope, result)] else []
  | _ => []

def reportedIn : PoolEvent → List (CommandEnvelope × CommandResult)
  | .reported envelope result =>
      if envelope.partitionId = partitionId then [(envelope, result)] else []
  | _ => []

def panickedIn : PoolEvent → List CommandEnvelope
  | .panicked envelope => if envelope.partitionId = partitionId then [envelope] else []
  | _ => []

/-- The command whose execution is over, by a report or by a panic. -/
def endedIn : PoolEvent → List CommandEnvelope
  | .reported envelope _ => if envelope.partitionId = partitionId then [envelope] else []
  | .panicked envelope => if envelope.partitionId = partitionId then [envelope] else []
  | _ => []

def reportedResult : PoolEvent → List CommandResult
  | .reported _ result => [result]
  | _ => []

def collectedResult : PoolEvent → List CommandResult
  | .collected result => [result]
  | _ => []

def startCount : PoolEvent → Nat
  | .started => 1
  | _ => 0

end PoolEvent

/-- How often the pool was started. -/
def starts (shown : List PoolEvent) : Nat := (shown.map PoolEvent.startCount).sum

namespace PoolTask

def isWorker : PoolTask → Bool
  | .checking _ | .dequeuing _ | .executing _ _ | .completing _ _ _ | .sleeping _ => true
  | _ => false

/-- The worker of a partition. -/
def worksFor (partitionId : PartitionId) : PoolTask → Bool
  | .checking id | .dequeuing id | .executing id _ | .completing id _ _ | .sleeping id =>
      id = partitionId
  | _ => false

def executingIn (partitionId : PartitionId) : PoolTask → Multiset CommandEnvelope
  | .executing _ envelope => if envelope.partitionId = partitionId then {envelope} else 0
  | _ => 0

def completingIn (partitionId : PartitionId)
    : PoolTask → Multiset (CommandEnvelope × CommandResult)
  | .completing _ envelope result =>
      if envelope.partitionId = partitionId then {(envelope, result)} else 0
  | _ => 0

/-- The commands that a task took from its partition and whose execution is not over. -/
def inHand (partitionId : PartitionId) : PoolTask → Multiset CommandEnvelope
  | .executing _ envelope | .completing _ envelope _ =>
      if envelope.partitionId = partitionId then {envelope} else 0
  | _ => 0

/-- The commands in a worker's hands are of its partition. -/
def AtHome : PoolTask → Prop
  | .executing id envelope | .completing id envelope _ => envelope.partitionId = id
  | _ => True

/-- The task, if it is a worker. -/
def crew (task : PoolTask) : Multiset PoolTask := if task.isWorker then {task} else 0

variable {partitionId : PartitionId} {task : PoolTask}

/-- Who holds a command of a partition works for it. -/
theorem inHand_eq_zero (home : task.AtHome) (other : task.worksFor partitionId = false)
    : task.inHand partitionId = 0 := by
  cases task with
  | executing id envelope | completing id envelope result =>
      have different : ¬envelope.partitionId = partitionId := by
        rw [show envelope.partitionId = id from home]
        simpa [worksFor] using other
      simp [inHand, different]
  | _ => rfl

end PoolTask

-----------------------------------------------------------------------------------------
-- The channels
-----------------------------------------------------------------------------------------

/-- Every channel holds what was enqueued to its partition and not dequeued, in order, and the
result channel what was reported and not collected.
-/
structure ChannelAccounts (pool : WorkerPool) (shown : List PoolEvent) : Prop where
  ordered
    : ∀ partitionId,
        shown.flatMap (PoolEvent.enqueuedTo partitionId)
        = shown.flatMap (PoolEvent.dequeuedFrom partitionId) ++ pool.queue.waiting partitionId
  home
    : ∀ partitionId, ∀ envelope ∈ pool.queue.waiting partitionId,
        envelope.partitionId = partitionId
  results
    : shown.flatMap PoolEvent.reportedResult
      = shown.flatMap PoolEvent.collectedResult ++ pool.queue.results.buffer

section Segments

variable {pool after : WorkerPool} {task : PoolTask} {next : List PoolTask}
  {shown more : List PoolEvent}

theorem ChannelAccounts.start (config : PartitionConfig) (uuid : String)
    : ChannelAccounts (.new (.new config uuid)) [] where
  ordered partitionId := by simp [WorkerPool.new]
  home partitionId envelope member := by simp [WorkerPool.new] at member
  results := rfl

/-- A segment leaves the accounts of the channels right, by what the calls of the queue do. -/
theorem PoolSegment.channels (segment : PoolSegment pool task after next more)
    (accounts : ChannelAccounts pool shown)
    : ChannelAccounts after (shown ++ more) := by
  cases segment with
  | enqueued enqueues =>
      rename_i envelope queue
      obtain ⟨_, waiting, results, _⟩ := LocalDistributedQueue.enqueue_some enqueues
      refine ⟨fun partitionId => ?_, fun partitionId other member => ?_, ?_⟩
      · have ordered := accounts.ordered partitionId
        by_cases same : partitionId = envelope.partitionId
        · subst same
          simp [PoolEvent.enqueuedTo, PoolEvent.dequeuedFrom, waiting, ordered]
        · simp [PoolEvent.enqueuedTo, PoolEvent.dequeuedFrom, waiting, ordered, same,
            Ne.symm same]
      · change other ∈ queue.waiting partitionId at member
        rw [waiting] at member
        rcases List.mem_append.mp member with old | new
        · exact accounts.home partitionId other old
        · split at new
          · rename_i same
            rw [List.mem_singleton.mp new, same]
          · cases new
      · simp [PoolEvent.reportedResult, PoolEvent.collectedResult, results, accounts.results]
  | dequeued dequeues =>
      rename_i taken envelope queue
      obtain ⟨waiting, results, _⟩ := LocalDistributedQueue.dequeue_some dequeues
      have own : envelope.partitionId = taken :=
        accounts.home taken envelope (by rw [waiting]; simp)
      refine ⟨fun partitionId => ?_, fun partitionId other member => ?_, ?_⟩
      · have ordered := accounts.ordered partitionId
        rw [waiting] at ordered
        by_cases same : partitionId = taken
        · subst same
          simpa [PoolEvent.enqueuedTo, PoolEvent.dequeuedFrom, own] using ordered
        · simpa [PoolEvent.enqueuedTo, PoolEvent.dequeuedFrom, own, same, Ne.symm same]
            using ordered
      · refine accounts.home partitionId other ?_
        rw [waiting]
        exact List.mem_append_right _ member
      · simp [PoolEvent.reportedResult, PoolEvent.collectedResult, results, accounts.results]
  | collected receives =>
      obtain ⟨buffer, same⟩ := LocalDistributedQueue.receiveResult_some receives
      rw [same]
      refine ⟨fun partitionId => ?_, accounts.home, ?_⟩
      · simpa [PoolEvent.enqueuedTo, PoolEvent.dequeuedFrom] using accounts.ordered partitionId
      · simpa [PoolEvent.reportedResult, PoolEvent.collectedResult, buffer]
          using accounts.results
  | reported completes =>
      obtain ⟨buffer, same⟩ := LocalDistributedQueue.complete_some completes
      rw [same]
      refine ⟨fun partitionId => ?_, accounts.home, ?_⟩
      · simpa [PoolEvent.enqueuedTo, PoolEvent.dequeuedFrom] using accounts.ordered partitionId
      · simp [PoolEvent.reportedResult, PoolEvent.collectedResult, buffer, accounts.results]
  | _ =>
      refine ⟨fun partitionId => ?_, accounts.home, ?_⟩
      · simpa [PoolEvent.enqueuedTo, PoolEvent.dequeuedFrom] using accounts.ordered partitionId
      · simpa [PoolEvent.reportedResult, PoolEvent.collectedResult] using accounts.results

-----------------------------------------------------------------------------------------
-- The commands that were taken and the results
-----------------------------------------------------------------------------------------

/-- Every command that was taken from a partition is being executed, was executed or was lost to
a panic, and every result of an execution is being reported or was reported.
-/
structure ExecutionAccounts (partitionId : PartitionId) (shown : List PoolEvent)
    (executing : Multiset CommandEnvelope)
    (completing : Multiset (CommandEnvelope × CommandResult))
    : Prop where
  taken
    : (shown.flatMap (PoolEvent.dequeuedFrom partitionId) : Multiset CommandEnvelope)
      = executing + (shown.flatMap (PoolEvent.finishedIn partitionId)).map Prod.fst
        + shown.flatMap (PoolEvent.panickedIn partitionId)
  completed
    : (shown.flatMap (PoolEvent.finishedIn partitionId)
        : Multiset (CommandEnvelope × CommandResult))
      = completing + shown.flatMap (PoolEvent.reportedIn partitionId)

variable {partitionId : PartitionId} {executing : Multiset CommandEnvelope}
  {completing : Multiset (CommandEnvelope × CommandResult)}

/-- A segment leaves the accounts of the executions right, whatever the other tasks do. -/
theorem PoolSegment.executions (segment : PoolSegment pool task after next more)
    (accounts
      : ExecutionAccounts partitionId shown (task.executingIn partitionId + executing)
          (task.completingIn partitionId + completing))
    : ExecutionAccounts partitionId (shown ++ more)
        ((next.map (PoolTask.executingIn partitionId)).sum + executing)
        ((next.map (PoolTask.completingIn partitionId)).sum + completing) := by
  obtain ⟨taken, completed⟩ := accounts
  cases segment with
  | started =>
      constructor
      · simpa [PoolEvent.dequeuedFrom, PoolEvent.finishedIn, PoolEvent.panickedIn,
          PoolTask.executingIn, Function.comp_def] using taken
      · simpa [PoolEvent.finishedIn, PoolEvent.reportedIn, PoolTask.completingIn,
          Function.comp_def] using completed
  | dequeued dequeues =>
      rename_i taking envelope queue
      constructor
      · by_cases same : envelope.partitionId = partitionId
        · simp only [PoolEvent.dequeuedFrom, PoolEvent.finishedIn, PoolEvent.panickedIn,
            PoolTask.executingIn, List.flatMap_append, List.flatMap_singleton, same, if_true,
            List.append_nil, List.map_singleton, List.sum_singleton, ← Multiset.coe_add,
            Multiset.coe_singleton, taken]
          abel
        · simpa [PoolEvent.dequeuedFrom, PoolEvent.finishedIn, PoolEvent.panickedIn,
            PoolTask.executingIn, same] using taken
      · simpa [PoolEvent.finishedIn, PoolEvent.reportedIn, PoolTask.completingIn]
          using completed
  | finished result elapsed =>
      rename_i taking envelope
      by_cases same : envelope.partitionId = partitionId
      · constructor
        · simp only [PoolEvent.dequeuedFrom, PoolEvent.finishedIn, PoolEvent.panickedIn,
            PoolTask.executingIn, List.flatMap_append, List.flatMap_singleton, same, if_true,
            List.append_nil, List.map_append, List.map_singleton, List.sum_singleton,
            ← Multiset.coe_add, Multiset.coe_singleton, zero_add] at taken ⊢
          rw [taken]
          abel
        · simp only [PoolEvent.finishedIn, PoolEvent.reportedIn, PoolTask.completingIn,
            List.flatMap_append, List.flatMap_singleton, same, if_true, List.append_nil,
            List.map_singleton, List.sum_singleton, ← Multiset.coe_add, Multiset.coe_singleton,
            zero_add] at completed ⊢
          rw [completed]
          abel
      · constructor
        · simpa [PoolEvent.dequeuedFrom, PoolEvent.finishedIn, PoolEvent.panickedIn,
            PoolTask.executingIn, same] using taken
        · simpa [PoolEvent.finishedIn, PoolEvent.reportedIn, PoolTask.completingIn, same]
            using completed
  | panicked =>
      rename_i taking envelope
      constructor
      · by_cases same : envelope.partitionId = partitionId
        · simp only [PoolEvent.dequeuedFrom, PoolEvent.finishedIn, PoolEvent.panickedIn,
            PoolTask.executingIn, List.flatMap_append, List.flatMap_singleton, same, if_true,
            List.append_nil, List.map_nil, List.sum_nil, ← Multiset.coe_add,
            Multiset.coe_singleton] at taken ⊢
          rw [taken]
          abel
        · simpa [PoolEvent.dequeuedFrom, PoolEvent.finishedIn, PoolEvent.panickedIn,
            PoolTask.executingIn, same] using taken
      · simpa [PoolEvent.finishedIn, PoolEvent.reportedIn, PoolTask.completingIn]
          using completed
  | reported completes =>
      rename_i taking envelope result queue
      constructor
      · simpa [PoolEvent.dequeuedFrom, PoolEvent.finishedIn, PoolEvent.panickedIn,
          PoolTask.executingIn] using taken
      · by_cases same : envelope.partitionId = partitionId
        · simp only [PoolEvent.finishedIn, PoolEvent.reportedIn, PoolTask.completingIn,
            List.flatMap_append, List.flatMap_singleton, same, if_true, List.append_nil,
            List.map_singleton, List.sum_singleton, ← Multiset.coe_add,
            Multiset.coe_singleton] at completed ⊢
          rw [completed]
          abel
        · simpa [PoolEvent.finishedIn, PoolEvent.reportedIn, PoolTask.completingIn, same]
            using completed
  | _ =>
      constructor
      · simpa [PoolEvent.dequeuedFrom, PoolEvent.finishedIn, PoolEvent.panickedIn,
          PoolTask.executingIn] using taken
      · simpa [PoolEvent.finishedIn, PoolEvent.reportedIn, PoolTask.completingIn]
          using completed

-----------------------------------------------------------------------------------------
-- The workers
-----------------------------------------------------------------------------------------

/-- The pool counts its workers, every start gives a partition at most one of them, a panic takes
it away, and a single worker ends its commands in the order in which it took them.
-/
structure CrewAccounts (pool : WorkerPool) (shown : List PoolEvent) (crew : Multiset PoolTask)
    : Prop where
  alive : pool.alive = crew.card
  home : ∀ task ∈ crew, task.AtHome
  few
    : ∀ partitionId,
        crew.countP (fun task => task.worksFor partitionId)
          + (shown.flatMap (PoolEvent.panickedIn partitionId)).length
        ≤ starts shown
  ordered
    : starts shown ≤ 1
      → ∀ partitionId,
          ∃ held : List CommandEnvelope,
            (held : Multiset CommandEnvelope) = (crew.map (PoolTask.inHand partitionId)).sum
            ∧ shown.flatMap (PoolEvent.dequeuedFrom partitionId)
              = shown.flatMap (PoolEvent.endedIn partitionId) ++ held

theorem CrewAccounts.start (queue : LocalDistributedQueue)
    : CrewAccounts (.new queue) [] 0 where
  alive := rfl
  home task member := absurd member (Multiset.notMem_zero task)
  few partitionId := by simp [starts]
  ordered _ partitionId := ⟨[], rfl, rfl⟩

variable {crew others : Multiset PoolTask}

theorem starts_append : starts (shown ++ more) = starts shown + starts more := by
  simp [starts]

/-- Beside the only worker of a partition nobody holds its commands. -/
theorem CrewAccounts.alone (accounts : CrewAccounts pool shown (task ::ₘ others))
    (once : starts shown ≤ 1) (works : task.worksFor partitionId = true)
    : (others.map (PoolTask.inHand partitionId)).sum = 0 := by
  have few := accounts.few partitionId
  rw [Multiset.countP_cons, if_pos works] at few
  have none : others.countP (fun task => task.worksFor partitionId) = 0 := by omega
  refine Multiset.sum_eq_zero (fun held member => ?_)
  obtain ⟨other, within, rfl⟩ := Multiset.mem_map.mp member
  refine PoolTask.inHand_eq_zero (accounts.home other (Multiset.mem_cons_of_mem within)) ?_
  simpa using Multiset.countP_eq_zero.mp none other within

/-- Events that say nothing about what the workers took and ended. -/
structure Aside (more : List PoolEvent) : Prop where
  starts : Lane.starts more = 0
  panicked : ∀ partitionId, more.flatMap (PoolEvent.panickedIn partitionId) = []
  dequeued : ∀ partitionId, more.flatMap (PoolEvent.dequeuedFrom partitionId) = []
  ended : ∀ partitionId, more.flatMap (PoolEvent.endedIn partitionId) = []

/-- The accounts after events that say nothing, with workers that hold the same commands. -/
theorem CrewAccounts.aside {later : Multiset PoolTask} (accounts : CrewAccounts pool shown crew)
    (aside : Aside more) (alive : after.alive = later.card)
    (home : ∀ task ∈ later, task.AtHome)
    (fewer
      : ∀ partitionId,
          later.countP (fun task => task.worksFor partitionId)
          ≤ crew.countP (fun task => task.worksFor partitionId))
    (hands
      : ∀ partitionId,
          (later.map (PoolTask.inHand partitionId)).sum
          = (crew.map (PoolTask.inHand partitionId)).sum)
    : CrewAccounts after (shown ++ more) later where
  alive := alive
  home := home
  few partitionId := by
    rw [starts_append, aside.starts, List.flatMap_append, aside.panicked, List.append_nil]
    exact le_trans (Nat.add_le_add_right (fewer partitionId) _) (accounts.few partitionId)
  ordered once partitionId := by
    rw [starts_append, aside.starts] at once
    obtain ⟨held, same, order⟩ := accounts.ordered once partitionId
    refine ⟨held, same.trans (hands partitionId).symm, ?_⟩
    rw [List.flatMap_append, List.flatMap_append, aside.dequeued, aside.ended, List.append_nil,
      List.append_nil, order]

/-- A worker goes on without taking or ending a command. -/
theorem CrewAccounts.turn {next : PoolTask}
    (accounts : CrewAccounts pool shown (task ::ₘ others)) (aside : Aside more)
    (home : next.AtHome)
    (same : ∀ partitionId, next.worksFor partitionId = task.worksFor partitionId)
    (hands : ∀ partitionId, next.inHand partitionId = task.inHand partitionId)
    : CrewAccounts pool (shown ++ more) (next ::ₘ others) := by
  refine accounts.aside aside ?_ ?_ (fun partitionId => ?_) (fun partitionId => ?_)
  · rw [accounts.alive, Multiset.card_cons, Multiset.card_cons]
  · intro other member
    rcases Multiset.mem_cons.mp member with rfl | within
    · exact home
    · exact accounts.home other (Multiset.mem_cons_of_mem within)
  · rw [Multiset.countP_cons, Multiset.countP_cons, same]
  · rw [Multiset.map_cons, Multiset.map_cons, hands]

/-- A worker without a command ends. -/
theorem CrewAccounts.leave (accounts : CrewAccounts pool shown (task ::ₘ others))
    (empty : ∀ partitionId, task.inHand partitionId = 0)
    : CrewAccounts { pool with alive := pool.alive - 1 } shown others := by
  have left : CrewAccounts { pool with alive := pool.alive - 1 } (shown ++ []) others := by
    refine accounts.aside ⟨rfl, fun _ => rfl, fun _ => rfl, fun _ => rfl⟩ ?_ ?_
      (fun partitionId => ?_) (fun partitionId => ?_)
    · have alive := accounts.alive
      rw [Multiset.card_cons] at alive
      change pool.alive - 1 = others.card
      omega
    · exact fun other within => accounts.home other (Multiset.mem_cons_of_mem within)
    · rw [Multiset.countP_cons]
      exact Nat.le_add_right _ _
    · rw [Multiset.map_cons, Multiset.sum_cons, empty, zero_add]
  rwa [List.append_nil] at left

/-- A worker takes a command of its partition. -/
theorem CrewAccounts.take {envelope : CommandEnvelope} {queue : LocalDistributedQueue}
    (accounts : CrewAccounts pool shown (.dequeuing partitionId ::ₘ others))
    (own : envelope.partitionId = partitionId)
    : CrewAccounts { pool with queue } (shown ++ [.dequeued envelope])
        (.executing partitionId envelope ::ₘ others) where
  alive := by
    have alive := accounts.alive
    rwa [Multiset.card_cons] at alive ⊢
  home other member := by
    rcases Multiset.mem_cons.mp member with rfl | within
    · exact own
    · exact accounts.home other (Multiset.mem_cons_of_mem within)
  few id := by
    have few := accounts.few id
    rw [Multiset.countP_cons] at few ⊢
    simpa [starts, PoolEvent.startCount, PoolEvent.panickedIn, PoolTask.worksFor] using few
  ordered once id := by
    have before : starts shown ≤ 1 := by
      simpa [starts, PoolEvent.startCount] using once
    obtain ⟨held, same, order⟩ := accounts.ordered before id
    by_cases here : envelope.partitionId = id
    · have works : (PoolTask.dequeuing partitionId).worksFor id = true := by
        simp [PoolTask.worksFor, ← own, here]
      have nothing := accounts.alone before works
      have empty : held = [] := by
        rw [Multiset.map_cons, Multiset.sum_cons, nothing] at same
        simpa [PoolTask.inHand] using same
      refine ⟨[envelope], ?_, ?_⟩
      · rw [Multiset.map_cons, Multiset.sum_cons, nothing]
        simp [PoolTask.inHand, here]
      · simp [PoolEvent.dequeuedFrom, PoolEvent.endedIn, here, order, empty]
    · refine ⟨held, ?_, ?_⟩
      · rw [same, Multiset.map_cons, Multiset.map_cons]
        simp [PoolTask.inHand, here]
      · simpa [PoolEvent.dequeuedFrom, PoolEvent.endedIn, here] using order

/-- A worker ends the command that it holds, and stays or not. -/
theorem CrewAccounts.finish {event : PoolEvent} {later : Multiset PoolTask}
    (accounts : CrewAccounts pool shown (task ::ₘ others)) (envelope : CommandEnvelope)
    (works : task.worksFor envelope.partitionId = true)
    (hands
      : ∀ id, task.inHand id = if envelope.partitionId = id then {envelope} else 0)
    (ends : ∀ id, event.endedIn id = if envelope.partitionId = id then [envelope] else [])
    (quiet : ∀ id, event.dequeuedFrom id = []) (noStart : event.startCount = 0)
    (alive : after.alive = later.card) (home : ∀ task ∈ later, task.AtHome)
    (fewer
      : ∀ id,
          later.countP (fun task => task.worksFor id) + (event.panickedIn id).length
          ≤ (task ::ₘ others).countP (fun task => task.worksFor id))
    (rest
      : ∀ id,
          (later.map (PoolTask.inHand id)).sum = (others.map (PoolTask.inHand id)).sum)
    : CrewAccounts after (shown ++ [event]) later where
  alive := alive
  home := home
  few id := by
    have few := accounts.few id
    have fewer := fewer id
    have same : starts [event] = 0 := by simpa [starts] using noStart
    rw [starts_append, same, List.flatMap_append, List.length_append, List.flatMap_singleton]
    omega
  ordered once id := by
    have before : starts shown ≤ 1 := by
      simpa [starts_append, starts, noStart] using once
    obtain ⟨held, same, order⟩ := accounts.ordered before id
    rw [Multiset.map_cons, Multiset.sum_cons, hands] at same
    by_cases here : envelope.partitionId = id
    · subst here
      have nothing := accounts.alone before works
      rw [if_pos rfl, nothing, add_zero, Multiset.coe_eq_singleton] at same
      refine ⟨[], ?_, ?_⟩
      · rw [rest, nothing]
        rfl
      · simp [quiet, ends, order, same]
    · rw [if_neg here, zero_add] at same
      refine ⟨held, by rw [same, rest], ?_⟩
      simp [quiet, ends, here, order]

/-- The new workers of a start are one for each partition. -/
theorem countP_started (partitionId : PartitionId) (count : Nat)
    : (((List.range count).map PoolTask.checking : List PoolTask) : Multiset PoolTask).countP
        (fun task => task.worksFor partitionId)
      ≤ 1 := by
  rw [Multiset.coe_countP, List.countP_map]
  have once := List.nodup_iff_count_le_one.mp (List.nodup_range (n := count)) partitionId
  refine le_trans (List.countP_mono_left (fun id _ works => ?_)) once
  simpa [PoolTask.worksFor] using works

/-- A start adds workers that hold nothing. -/
theorem CrewAccounts.started (accounts : CrewAccounts pool shown crew) (handles : Nat)
    : CrewAccounts
        { pool with
          workerHandles := handles
          alive := pool.alive + pool.queue.numPartitions }
        (shown ++ [.started])
        (((List.range pool.queue.numPartitions).map PoolTask.checking : List PoolTask) + crew)
    where
  alive := by
    rw [Multiset.card_add, Multiset.coe_card, List.length_map, List.length_range, ← accounts.alive]
    exact Nat.add_comm _ _
  home task member := by
    rcases Multiset.mem_add.mp member with new | old
    · obtain ⟨id, _, rfl⟩ := List.mem_map.mp (Multiset.mem_coe.mp new)
      trivial
    · exact accounts.home task old
  few id := by
    have few := accounts.few id
    have new := countP_started id pool.queue.numPartitions
    simp only [Multiset.countP_add, starts_append, List.flatMap_append, List.flatMap_singleton,
      PoolEvent.panickedIn, List.append_nil]
    change _ ≤ starts shown + 1
    omega
  ordered once id := by
    have before : starts shown ≤ 1 := by
      rw [starts_append] at once
      omega
    obtain ⟨held, same, order⟩ := accounts.ordered before id
    refine ⟨held, ?_, ?_⟩
    · simp [same, PoolTask.inHand, Function.comp_def]
    · simpa [PoolEvent.dequeuedFrom, PoolEvent.endedIn] using order

/-- A segment leaves the accounts of the workers right, when the channels hold the commands of
their own partitions.
-/
theorem PoolSegment.workers (segment : PoolSegment pool task after next more)
    (channels : ChannelAccounts pool shown)
    (accounts : CrewAccounts pool shown (task.crew + others))
    : CrewAccounts after (shown ++ more) ((next.map PoolTask.crew).sum + others) := by
  cases segment with
  | started =>
      change CrewAccounts pool shown (0 + others) at accounts
      rw [zero_add] at accounts
      have crew
          : (((List.range pool.queue.numPartitions).map PoolTask.checking).map PoolTask.crew).sum
            = (((List.range pool.queue.numPartitions).map PoolTask.checking : List PoolTask)
                : Multiset PoolTask) := by
        have single : PoolTask.crew ∘ PoolTask.checking = fun id => {PoolTask.checking id} := rfl
        rw [List.map_map, single]
        generalize List.range pool.queue.numPartitions = ids
        induction ids with
        | nil => rfl
        | cons id rest ih =>
            rw [List.map_cons, List.sum_cons, ih]
            rfl
      rw [crew]
      exact accounts.started _
  | stopped =>
      change CrewAccounts pool shown (PoolTask.checking _ ::ₘ others) at accounts
      simpa using accounts.leave (fun _ => rfl)
  | dequeued dequeues =>
      rename_i taking envelope queue
      change CrewAccounts pool shown (PoolTask.dequeuing _ ::ₘ others) at accounts
      have own : envelope.partitionId = taking := by
        refine channels.home taking envelope ?_
        rw [(LocalDistributedQueue.dequeue_some dequeues).1 taking]
        simp
      exact accounts.take own
  | panicked =>
      rename_i taking envelope
      change CrewAccounts pool shown (PoolTask.executing taking envelope ::ₘ others) at accounts
      have own : envelope.partitionId = taking :=
        accounts.home _ (Multiset.mem_cons_self _ _)
      change CrewAccounts _ _ (0 + others)
      rw [zero_add]
      refine accounts.finish envelope ?_ (fun id => rfl) (fun id => rfl)
        (fun id => rfl) rfl ?_ ?_ (fun id => ?_) (fun id => rfl)
      · simp [PoolTask.worksFor, own]
      · have alive := accounts.alive
        rw [Multiset.card_cons] at alive
        change pool.alive - 1 = others.card
        omega
      · exact fun other within => accounts.home other (Multiset.mem_cons_of_mem within)
      · rw [Multiset.countP_cons]
        by_cases here : envelope.partitionId = id
        · simp [PoolEvent.panickedIn, PoolTask.worksFor, ← own, here]
        · simp [PoolEvent.panickedIn, PoolTask.worksFor, ← own, here]
  | reported completes =>
      rename_i taking envelope result queue
      change CrewAccounts pool shown (PoolTask.completing taking envelope result ::ₘ others)
        at accounts
      have own : envelope.partitionId = taking :=
        accounts.home _ (Multiset.mem_cons_self _ _)
      change CrewAccounts _ _ (PoolTask.checking taking ::ₘ others)
      refine accounts.finish envelope ?_ (fun id => rfl) (fun id => rfl)
        (fun id => rfl) rfl ?_ ?_ (fun id => ?_) (fun id => ?_)
      · simp [PoolTask.worksFor, own]
      · have alive := accounts.alive
        rwa [Multiset.card_cons] at alive ⊢
      · intro other member
        rcases Multiset.mem_cons.mp member with rfl | within
        · trivial
        · exact accounts.home other (Multiset.mem_cons_of_mem within)
      · rw [Multiset.countP_cons, Multiset.countP_cons]
        exact Nat.le_refl _
      · rw [Multiset.map_cons, Multiset.sum_cons]
        exact zero_add _
  | goesOn | nothingThere | dequeueFailed | woken =>
      have silent : Aside [] := ⟨rfl, fun _ => rfl, fun _ => rfl, fun _ => rfl⟩
      exact CrewAccounts.turn accounts silent trivial (fun _ => rfl) (fun _ => rfl)
  | finished =>
      rename_i taking envelope result elapsed
      refine CrewAccounts.turn accounts ⟨rfl, fun _ => rfl, fun _ => rfl, fun _ => rfl⟩ ?_
        (fun _ => rfl) (fun _ => rfl)
      exact accounts.home (.executing taking envelope) (Multiset.mem_cons_self _ _)
  | _ =>
      refine accounts.aside ⟨rfl, fun _ => rfl, fun _ => rfl, fun _ => rfl⟩ ?_ ?_
        (fun _ => ?_) (fun _ => rfl)
      · exact accounts.alive
      · exact accounts.home
      · exact Nat.le_refl _

end Segments

end Lane
