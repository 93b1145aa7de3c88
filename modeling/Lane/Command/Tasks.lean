import Lane.Command.Queue
import Lane.Library.TaskPool
import Mathlib.Data.List.Sort

/-! The tasks of the command queue: submissions, schedulers, executions, retry timers, waits and
shutdowns. A task is cut where it takes a lock or awaits something, and its segments may
interleave in any order.
-/

namespace Lane

-----------------------------------------------------------------------------------------
-- What a task shows
-----------------------------------------------------------------------------------------

/-- What happens to one accepted command. -/
inductive Milestone (ι : Type) where
  | accepted
  | rejected
  | enqueued (handle : ι)
  | dequeued
  | started
  | delayed
  | requeued
  | lettered (letter : DeadLetter)
  | sent (result : Result Value)
  | panicked
  | dropped

/-- What the outside sees of a segment. -/
inductive Observation (ι : Type) where
  | reached (serial : Nat) (milestone : Milestone ι)
  | refused (error : LaneError)
  | emitted (event : LaneEvent)
  | saved (command : StoredCommand)
  | removed (commandId : CommandId)
  | idle

-----------------------------------------------------------------------------------------
-- Tasks
-----------------------------------------------------------------------------------------

/-- Who asks whether the queue is idle. -/
inductive IdleCaller where
  | scheduler
  | waiter
deriving DecidableEq

/-- A task between two of its segments. -/
inductive Task (ι : Type) where
  -- `submit`
  | submit (laneId : LaneId) (command : Command)
  | accepted (permit : WorkPermit) (laneId : LaneId) (command : Command)
  | located (permit : WorkPermit) (laneId : LaneId) (handle : ι) (command : Command)
  | configured (permit : WorkPermit) (laneId : LaneId) (handle : ι) (command : Command)
    (timeout : Option Duration) (retryPolicy : RetryPolicy)
  | saved (laneId : LaneId) (handle : ι) (wrapper : CommandWrapper)
  | enqueued (laneId : LaneId)
  -- `spawn_scheduler` and `schedule_next`
  | schedule
  | checking (lanes rest : List (LaneId × ι))
  | ranking (rest : List ι) (ranked : List (Priority × ι))
  | polling (rest : List ι)
  | dequeuing (handle : ι) (rest : List ι)
  | dequeued (handle : ι) (wrapper : CommandWrapper)
  | scheduled
  | resting
  -- `is_idle`, `wait_for_idle` and `shutdown`
  | waiting
  | idling (caller : IdleCaller)
  | probing (caller : IdleCaller) (rest : List ι)
  | shutdown
  -- the task that `schedule_next` spawns
  | running (handle : ι) (wrapper : CommandWrapper)
  | completing (handle : ι) (wrapper : CommandWrapper) (value : Value)
  | retrying (handle : ι) (wrapper : CommandWrapper)
  | retried (handle : ι) (laneId : LaneId) (commandId : CommandId) (attempt : Nat)
  | failing (handle : ι) (wrapper : CommandWrapper) (error : LaneError)
  | failed (handle : ι) (wrapper : CommandWrapper) (error : LaneError)
  | finishing (handle : ι) (permit : Option WorkPermit)
  -- the task that `retry_command` spawns, and the drop of a permit
  | backingOff (handle : ι) (wrapper : CommandWrapper)
  | dropping (permit : WorkPermit)

namespace Task

variable {ι : Type}

/-- The calls that start a task. -/
inductive Entry : Task ι → Prop
  | submit (laneId : LaneId) (command : Command) : Entry (.submit laneId command)
  | schedule : Entry .schedule
  | waiting : Entry .waiting
  | shutdown : Entry .shutdown

/-- How a caller of `is_idle` goes on when the queue is not idle. -/
def notIdle : IdleCaller → Task ι
  | .scheduler => .resting
  | .waiter => .waiting

/-- What a caller of `is_idle` shows when the queue is idle. -/
def foundIdle : IdleCaller → Observation ι
  | .scheduler => .emitted { key := "queue.shutdown.complete" }
  | .waiter => .idle

end Task

-----------------------------------------------------------------------------------------
-- Records that the segments write
-----------------------------------------------------------------------------------------

/-- The wrapper of a newly enqueued command. -/
def newWrapper (permit : WorkPermit) (laneId : LaneId) (command : Command)
    (timeout : Option Duration) (retryPolicy : RetryPolicy) (id : CommandId) (now : DateTime)
    : CommandWrapper :=
  { id
    command
    resultTx := some permit.serial
    timeout
    retryPolicy
    attempt := 0
    laneId
    commandType := command.commandType
    workPermit := permit
    enqueueTime := now }

def storedCommand (wrapper : CommandWrapper) (now : DateTime) : StoredCommand :=
  { id := wrapper.id
    commandType := wrapper.commandType
    laneId := wrapper.laneId
    payload := .object []
    retryCount := 0
    createdAt := now
    lastAttemptAt := none }

def deadLetter (wrapper : CommandWrapper) (error : LaneError) (now : DateTime) : DeadLetter :=
  { commandId := wrapper.id
    commandType := wrapper.commandType
    laneId := wrapper.laneId
    error := toString error
    attempts := (wrapper.attempt + 1) % 2 ^ 32
    failedAt := now }

/-- The event of a command in a lane, with more fields. -/
def commandEvent (key : String) (wrapper : CommandWrapper) (fields : List (String × Value))
    : LaneEvent :=
  { key
    payload :=
      [("lane_id", .string wrapper.laneId), ("command_id", .string wrapper.id)] ++ fields }

def failureKey : LaneError → String
  | .timeout _ => "queue.command.timeout"
  | _ => "queue.command.failed"

/-- How an execution ends. -/
inductive Outcome where
  | returned (result : Result Value)
  | timedOut
  | panicked

/-- The result that the outcome gives a command, if the outcome is possible for it. -/
def CommandWrapper.resultOf (wrapper : CommandWrapper) : Outcome → Option (Result Value)
  | .returned result => some result
  | .timedOut => wrapper.timeout.map (fun duration => .error (.timeout duration))
  | .panicked => none

-----------------------------------------------------------------------------------------
-- Segments
-----------------------------------------------------------------------------------------

variable {ι : Type} [DecidableEq ι]

/-- One segment of a task: what it does to the queue, how the task goes on, with the tasks that
it spawns, and what it shows. Times, generated ids, refills and outcomes come from outside.
-/
inductive Segment
    : CommandQueue ι → Task ι → CommandQueue ι → List (Task ι) → List (Observation ι) → Prop
  | refused {queue after : CommandQueue ι} {laneId : LaneId} {command : Command}
    {error : LaneError} (refuses : queue.admitPermit = (after, .error error))
    : Segment queue (.submit laneId command) after [] [.refused error]
  | accepted {queue after : CommandQueue ι} {laneId : LaneId} {command : Command}
    {permit : WorkPermit} (accepts : queue.admitPermit = (after, .ok permit))
    : Segment queue (.submit laneId command) after [.accepted permit laneId command]
        [.reached permit.serial .accepted]
  | laneNotFound {queue : CommandQueue ι} {permit : WorkPermit} {laneId : LaneId}
    {command : Command} (absent : queue.lanes.lookup laneId = none)
    : Segment queue (.accepted permit laneId command) queue [.dropping permit]
        [.refused (.laneNotFound laneId), .reached permit.serial .rejected]
  | located {queue : CommandQueue ι} {permit : WorkPermit} {laneId : LaneId}
    {command : Command} {handle : ι} (found : queue.lanes.lookup laneId = some handle)
    : Segment queue (.accepted permit laneId command) queue
        [.located permit laneId handle command] []
  | configured {queue : CommandQueue ι} {permit : WorkPermit} {laneId : LaneId}
    {command : Command} {handle : ι}
    : Segment queue (.located permit laneId handle command) queue
        [.configured permit laneId handle command
          (queue.lane handle).state.config.defaultTimeout
          (queue.lane handle).state.config.retryPolicy]
        []
  | saved {queue : CommandQueue ι} {permit : WorkPermit} {laneId : LaneId} {command : Command}
    {handle : ι} {timeout : Option Duration} {retryPolicy : RetryPolicy} (id : CommandId)
    (now : DateTime)
    : Segment queue (.configured permit laneId handle command timeout retryPolicy) queue
        [.saved laneId handle (newWrapper permit laneId command timeout retryPolicy id now)]
        (if (queue.lane handle).storage then
          [.saved
            (storedCommand (newWrapper permit laneId command timeout retryPolicy id now) now)]
        else
          [])
  | enqueued {queue : CommandQueue ι} {laneId : LaneId} {handle : ι} {wrapper : CommandWrapper}
    : Segment queue (.saved laneId handle wrapper)
        (queue.setLane handle ((queue.lane handle).enqueue wrapper)) [.enqueued laneId]
        [.reached wrapper.workPermit.serial (.enqueued handle)]
  | submitted {queue : CommandQueue ι} {laneId : LaneId}
    : Segment queue (.enqueued laneId) queue []
        [.emitted
          { key := "queue.command.submitted", payload := [("lane_id", .string laneId)] }]
  | snapshot {queue : CommandQueue ι}
    : Segment queue .schedule queue
        [.checking (queue.lanes.entries.map (fun entry => (entry.1, entry.2)))
          (queue.lanes.entries.map (fun entry => (entry.1, entry.2)))]
        []
  | checked {queue : CommandQueue ι} {lanes rest : List (LaneId × ι)} {laneId : LaneId}
    {handle : ι}
    : Segment queue (.checking lanes ((laneId, handle) :: rest))
        (queue.setLane handle (queue.lane handle).checkPressure.1) [.checking lanes rest]
        ((queue.lane handle).checkPressure.2.toList.map
          (fun key => .emitted { key, payload := [("lane_id", .string laneId)] }))
  | allChecked {queue : CommandQueue ι} {lanes : List (LaneId × ι)}
    : Segment queue (.checking lanes []) queue [.ranking (lanes.map Prod.snd) []] []
  | ranked {queue : CommandQueue ι} {handle : ι} {rest : List ι} {ranked : List (Priority × ι)}
    {priority : Priority} (now : DateTime)
    (boosted : (queue.lane handle).effectivePriority now = some priority)
    : Segment queue (.ranking (handle :: rest) ranked) queue
        [.ranking rest (ranked ++ [(priority, handle)])] []
  | rankPanicked {queue : CommandQueue ι} {handle : ι} {rest : List ι}
    {ranked : List (Priority × ι)} (now : DateTime)
    (overflows : (queue.lane handle).effectivePriority now = none)
    : Segment queue (.ranking (handle :: rest) ranked) queue [] []
  | allRanked {queue : CommandQueue ι} {ranked : List (Priority × ι)}
    : Segment queue (.ranking [] ranked) queue
        [.polling ((ranked.insertionSort (fun left right => left.1 ≤ right.1)).map Prod.snd)] []
  | limited {queue : CommandQueue ι} {handle : ι} {rest : List ι} (newTokens : Nat)
    (limits : ((queue.lane handle).tryAcquire newTokens).2 = false)
    : Segment queue (.polling (handle :: rest))
        (queue.setLane handle ((queue.lane handle).tryAcquire newTokens).1) [.polling rest] []
  | acquired {queue : CommandQueue ι} {handle : ι} {rest : List ι} (newTokens : Nat)
    (acquires : ((queue.lane handle).tryAcquire newTokens).2 = true)
    : Segment queue (.polling (handle :: rest))
        (queue.setLane handle ((queue.lane handle).tryAcquire newTokens).1)
        [.dequeuing handle rest] []
  | allPolled {queue : CommandQueue ι} : Segment queue (.polling []) queue [.scheduled] []
  | nothingDequeued {queue : CommandQueue ι} {handle : ι} {rest : List ι}
    (nothing : (queue.lane handle).tryDequeue.2 = none)
    : Segment queue (.dequeuing handle rest)
        (queue.setLane handle (queue.lane handle).tryDequeue.1) [.polling rest] []
  | dequeued {queue : CommandQueue ι} {handle : ι} {rest : List ι} {wrapper : CommandWrapper}
    (front : (queue.lane handle).tryDequeue.2 = some wrapper)
    : Segment queue (.dequeuing handle rest)
        (queue.setLane handle (queue.lane handle).tryDequeue.1) [.dequeued handle wrapper]
        [.reached wrapper.workPermit.serial .dequeued]
  | started {queue : CommandQueue ι} {handle : ι} {wrapper : CommandWrapper}
    : Segment queue (.dequeued handle wrapper) queue [.scheduled, .running handle wrapper]
        [.emitted (commandEvent "queue.command.started" wrapper
            [("command_type", .string wrapper.commandType)]),
          .reached wrapper.workPermit.serial .started]
  | stillOpen {queue : CommandQueue ι} (running : queue.lifecycle.isShuttingDown = false)
    : Segment queue .scheduled queue [.resting] []
  | closing {queue : CommandQueue ι} (shutting : queue.lifecycle.isShuttingDown = true)
    : Segment queue .scheduled queue [.idling .scheduler] []
  | woken {queue : CommandQueue ι} : Segment queue .resting queue [.schedule] []
  | asked {queue : CommandQueue ι} : Segment queue .waiting queue [.idling .waiter] []
  | outstanding {queue : CommandQueue ι} {caller : IdleCaller}
    (busy : queue.lifecycle.outstanding ≠ 0)
    : Segment queue (.idling caller) queue [Task.notIdle caller] []
  | noneOutstanding {queue : CommandQueue ι} {caller : IdleCaller}
    (done : queue.lifecycle.outstanding = 0)
    : Segment queue (.idling caller) queue
        [.probing caller (queue.lanes.entries.map Sigma.snd)] []
  | laneBusy {queue : CommandQueue ι} {caller : IdleCaller} {handle : ι} {rest : List ι}
    (busy : (queue.lane handle).isIdle = false)
    : Segment queue (.probing caller (handle :: rest)) queue [Task.notIdle caller] []
  | laneIdle {queue : CommandQueue ι} {caller : IdleCaller} {handle : ι} {rest : List ι}
    (idle : (queue.lane handle).isIdle = true)
    : Segment queue (.probing caller (handle :: rest)) queue [.probing caller rest] []
  | idle {queue : CommandQueue ι} {caller : IdleCaller}
    : Segment queue (.probing caller []) queue [] [Task.foundIdle caller]
  | shutdown {queue : CommandQueue ι}
    : Segment queue .shutdown queue.beginShutdown.1 []
        (if queue.beginShutdown.2 then [.emitted { key := "queue.shutdown.started" }] else [])
  | succeeded {queue : CommandQueue ι} {handle : ι} {wrapper : CommandWrapper}
    {outcome : Outcome} {value : Value} (result : wrapper.resultOf outcome = some (.ok value))
    : Segment queue (.running handle wrapper) queue [.completing handle wrapper value] []
  | willRetry {queue : CommandQueue ι} {handle : ι} {wrapper : CommandWrapper}
    {outcome : Outcome} {error : LaneError}
    (result : wrapper.resultOf outcome = some (.error error))
    (retries : wrapper.retryPolicy.shouldRetry wrapper.attempt = true)
    : Segment queue (.running handle wrapper) queue [.retrying handle wrapper] []
  | willFail {queue : CommandQueue ι} {handle : ι} {wrapper : CommandWrapper}
    {outcome : Outcome} {error : LaneError}
    (result : wrapper.resultOf outcome = some (.error error))
    (exhausted : wrapper.retryPolicy.shouldRetry wrapper.attempt = false)
    : Segment queue (.running handle wrapper) queue [.failing handle wrapper error] []
  | panicked {queue : CommandQueue ι} {handle : ι} {wrapper : CommandWrapper}
    : Segment queue (.running handle wrapper) queue [.dropping wrapper.workPermit]
        [.reached wrapper.workPermit.serial .panicked]
  | completed {queue : CommandQueue ι} {handle : ι} {wrapper : CommandWrapper} {value : Value}
    : Segment queue (.completing handle wrapper value) queue
        [.finishing handle (some wrapper.workPermit)]
        ((if (queue.lane handle).storage then [.removed wrapper.id] else [])
          ++ [.emitted (commandEvent "queue.command.completed" wrapper [])]
          ++ wrapper.resultTx.toList.map (.reached · (.sent (.ok value))))
  | delayed {queue : CommandQueue ι} {handle : ι} {wrapper : CommandWrapper}
    : Segment queue (.retrying handle wrapper)
        (queue.setLane handle (queue.lane handle).countRetry)
        [.backingOff handle { wrapper with attempt := wrapper.attempt + 1 },
          .retried handle wrapper.laneId wrapper.id (wrapper.attempt + 1)]
        [.reached wrapper.workPermit.serial .delayed]
  | retried {queue : CommandQueue ι} {handle : ι} {laneId : LaneId} {commandId : CommandId}
    {attempt : Nat}
    : Segment queue (.retried handle laneId commandId attempt) queue [.finishing handle none]
        [.emitted
          { key := "queue.command.retry"
            payload :=
              [("lane_id", .string laneId), ("command_id", .string commandId),
                ("attempt", .number attempt)] }]
  | lettered {queue : CommandQueue ι} {handle : ι} {wrapper : CommandWrapper}
    {error : LaneError} {dlq : DeadLetterQueue} (now : DateTime)
    (present : queue.dlq = some dlq)
    : Segment queue (.failing handle wrapper error)
        { queue with dlq := some (dlq.push (deadLetter wrapper error now)) }
        [.failed handle wrapper error]
        ((if (queue.lane handle).storage then [.removed wrapper.id] else [])
          ++ [.reached wrapper.workPermit.serial (.lettered (deadLetter wrapper error now)),
            .emitted (commandEvent "queue.command.dead_lettered" wrapper
              [("command_type", .string wrapper.commandType)])])
  | unlettered {queue : CommandQueue ι} {handle : ι} {wrapper : CommandWrapper}
    {error : LaneError} (absent : queue.dlq = none)
    : Segment queue (.failing handle wrapper error) queue [.failed handle wrapper error]
        (if (queue.lane handle).storage then [.removed wrapper.id] else [])
  | failed {queue : CommandQueue ι} {handle : ι} {wrapper : CommandWrapper}
    {error : LaneError}
    : Segment queue (.failed handle wrapper error) queue
        [.finishing handle (some wrapper.workPermit)]
        ([.emitted (commandEvent (failureKey error) wrapper
            [("error", .string (toString error))])]
          ++ wrapper.resultTx.toList.map (.reached · (.sent (.error error))))
  | finished {queue : CommandQueue ι} {handle : ι} {permit : Option WorkPermit}
    : Segment queue (.finishing handle permit)
        (queue.setLane handle (queue.lane handle).markCompleted)
        (permit.toList.map Task.dropping) []
  | requeued {queue : CommandQueue ι} {handle : ι} {wrapper : CommandWrapper}
    : Segment queue (.backingOff handle wrapper)
        (queue.setLane handle ((queue.lane handle).requeue wrapper)) []
        [.reached wrapper.workPermit.serial .requeued]
  | dropped {queue : CommandQueue ι} {permit : WorkPermit}
    : Segment queue (.dropping permit) queue.dropPermit []
        [.reached permit.serial .dropped]

/-- The command queue with its tasks. -/
abbrev CommandPool (ι : Type) := TaskPool (CommandQueue ι) (Task ι) (Observation ι)

/-- The command queue as a transition system. -/
def commandSystem (ι : Type) [DecidableEq ι]
    : LabelledSystem (CommandPool ι) (TaskPool.Move (Task ι) (Observation ι)) :=
  TaskPool.system Task.Entry Segment

end Lane
