import Lane.Distributed.Queue
import Lane.Library.TaskPool

/-! The worker pool: a task for each partition that takes commands from it, executes them and
reports their results, beside the calls that enqueue, collect, start and shut down. A task is cut
where it reads the shutdown flag or awaits something.
-/

namespace Lane

/-- What the tasks share: the queue, the shutdown flag, the handles that the pool keeps and the
workers that have not ended.
-/
structure WorkerPool where
  queue : LocalDistributedQueue
  shutdown : Bool
  workerHandles : Nat
  alive : Nat

namespace WorkerPool

def new (queue : LocalDistributedQueue) : WorkerPool :=
  { queue, shutdown := false, workerHandles := 0, alive := 0 }

def isRunning (pool : WorkerPool) : Bool := pool.workerHandles ≠ 0 && !pool.shutdown

end WorkerPool

/-- What the outside sees of the pool. -/
inductive PoolEvent where
  | enqueued (envelope : CommandEnvelope)
  | rejected (error : LaneError)
  | started
  | dequeued (envelope : CommandEnvelope)
  | finished (envelope : CommandEnvelope) (result : CommandResult)
  | panicked (envelope : CommandEnvelope)
  | reported (envelope : CommandEnvelope) (result : CommandResult)
  | collected (result : CommandResult)
  | joined

/-- A task between two of its segments. -/
inductive PoolTask where
  | enqueue (envelope : CommandEnvelope)
  | collect
  | start
  | shutdown
  | joining
  -- the loop of a worker
  | checking (partitionId : PartitionId)
  | dequeuing (partitionId : PartitionId)
  | executing (partitionId : PartitionId) (envelope : CommandEnvelope)
  | completing (partitionId : PartitionId) (envelope : CommandEnvelope) (result : CommandResult)
  | sleeping (partitionId : PartitionId)

/-- The calls that start a task. -/
inductive PoolTask.Entry : PoolTask → Prop
  | enqueue (envelope : CommandEnvelope) : Entry (.enqueue envelope)
  | collect : Entry .collect
  | start : Entry .start
  | shutdown : Entry .shutdown

/-- The result that a worker makes of what the executor returned. -/
def commandResult (envelope : CommandEnvelope) (result : Except String Value)
    (workerId : WorkerId) (elapsed : Duration)
    : CommandResult :=
  { commandId := envelope.id
    result
    workerId
    durationMs := elapsed / nanosPerMilli % 2 ^ 64 }

/-- One segment of a task. What an execution returns, whether it panics and how long it takes
come from outside.
-/
inductive PoolSegment
    : WorkerPool → PoolTask → WorkerPool → List PoolTask → List PoolEvent → Prop
  | rejected {pool : WorkerPool} {envelope : CommandEnvelope} {error : LaneError}
    (rejects : pool.queue.enqueue envelope = .error error)
    : PoolSegment pool (.enqueue envelope) pool [] [.rejected error]
  | enqueued {pool : WorkerPool} {envelope : CommandEnvelope} {queue : LocalDistributedQueue}
    (enqueues : pool.queue.enqueue envelope = .ok (some queue))
    : PoolSegment pool (.enqueue envelope) { pool with queue } [] [.enqueued envelope]
  | collected {pool : WorkerPool} {result : CommandResult} {queue : LocalDistributedQueue}
    (receives : pool.queue.receiveResult = some (result, queue))
    : PoolSegment pool .collect { pool with queue } [] [.collected result]
  | started {pool : WorkerPool}
    : PoolSegment pool .start
        { pool with
          workerHandles := pool.workerHandles + pool.queue.numPartitions
          alive := pool.alive + pool.queue.numPartitions }
        ((List.range pool.queue.numPartitions).map .checking) [.started]
  | shutdown {pool : WorkerPool}
    : PoolSegment pool .shutdown { pool with shutdown := true } [.joining] []
  | joined {pool : WorkerPool} (ended : pool.alive = 0)
    : PoolSegment pool .joining { pool with workerHandles := 0 } [] [.joined]
  | stopped {pool : WorkerPool} {partitionId : PartitionId} (shutting : pool.shutdown = true)
    : PoolSegment pool (.checking partitionId) { pool with alive := pool.alive - 1 } [] []
  | goesOn {pool : WorkerPool} {partitionId : PartitionId} (running : pool.shutdown = false)
    : PoolSegment pool (.checking partitionId) pool [.dequeuing partitionId] []
  | dequeued {pool : WorkerPool} {partitionId : PartitionId} {envelope : CommandEnvelope}
    {queue : LocalDistributedQueue}
    (dequeues : pool.queue.dequeue partitionId = .ok (queue, some envelope))
    : PoolSegment pool (.dequeuing partitionId) { pool with queue }
        [.executing partitionId envelope] [.dequeued envelope]
  | nothingThere {pool : WorkerPool} {partitionId : PartitionId} {queue : LocalDistributedQueue}
    (nothing : pool.queue.dequeue partitionId = .ok (queue, none))
    : PoolSegment pool (.dequeuing partitionId) pool [.sleeping partitionId] []
  | dequeueFailed {pool : WorkerPool} {partitionId : PartitionId} {error : LaneError}
    (fails : pool.queue.dequeue partitionId = .error error)
    : PoolSegment pool (.dequeuing partitionId) pool [.sleeping partitionId] []
  | woken {pool : WorkerPool} {partitionId : PartitionId}
    : PoolSegment pool (.sleeping partitionId) pool [.checking partitionId] []
  | finished {pool : WorkerPool} {partitionId : PartitionId} {envelope : CommandEnvelope}
    (result : Except String Value) (elapsed : Duration)
    : PoolSegment pool (.executing partitionId envelope) pool
        [.completing partitionId envelope
          (commandResult envelope result pool.queue.workerId elapsed)]
        [.finished envelope (commandResult envelope result pool.queue.workerId elapsed)]
  | panicked {pool : WorkerPool} {partitionId : PartitionId} {envelope : CommandEnvelope}
    : PoolSegment pool (.executing partitionId envelope) { pool with alive := pool.alive - 1 }
        [] [.panicked envelope]
  | reported {pool : WorkerPool} {partitionId : PartitionId} {envelope : CommandEnvelope}
    {result : CommandResult} {queue : LocalDistributedQueue}
    (completes : pool.queue.complete result = some queue)
    : PoolSegment pool (.completing partitionId envelope result) { pool with queue }
        [.checking partitionId] [.reported envelope result]

/-- The pool as a transition system. -/
abbrev workerPoolSystem := TaskPool.system PoolTask.Entry PoolSegment

end Lane
