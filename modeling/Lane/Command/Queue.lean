import Lane.Command.Lane
import Mathlib.Logic.Function.Basic

/-! The command queue: its lanes, its dead letters and its admission counter. -/

namespace Lane

-----------------------------------------------------------------------------------------
-- Error texts
-----------------------------------------------------------------------------------------

/-- The decimal digits of a fraction with that many places, up to the last that is not zero. -/
def fractionDigits : Nat → Nat → String
  | 0, _ => ""
  | places + 1, fraction =>
      if fraction = 0 then
        ""
      else
        toString (fraction / 10 ^ places) ++ fractionDigits places (fraction % 10 ^ places)

/-- A number with its fraction and unit. -/
def decimalText (integer fraction places : Nat) (suffix : String) : String :=
  if fraction = 0 then
    toString integer ++ suffix
  else
    toString integer ++ "." ++ fractionDigits places fraction ++ suffix

/-- The debug text of a duration: seconds or the largest smaller unit that fits. -/
def durationText (duration : Duration) : String :=
  if duration ≥ 1000000000 then
    decimalText (duration / 1000000000) (duration % 1000000000) 9 "s"
  else if duration ≥ 1000000 then
    decimalText (duration / 1000000) (duration % 1000000) 6 "ms"
  else if duration ≥ 1000 then
    decimalText (duration / 1000) (duration % 1000) 3 "µs"
  else
    toString duration ++ "ns"

instance : ToString LaneError where
  toString
    | .laneNotFound laneId => s!"Lane not found: {laneId}"
    | .queueError message => s!"Queue error: {message}"
    | .configError message => s!"Configuration error: {message}"
    | .commandError message => s!"Command execution error: {message}"
    | .jobNotFound jobId => s!"Job not found: {jobId}"
    | .jobStateConflict message => s!"Job state conflict: {message}"
    | .jobLeaseConflict message => s!"Job lease conflict: {message}"
    | .unrecoverableJob message => message
    | .timeout duration => s!"Command timed out after {durationText duration}"
    | .shutdownInProgress => "Queue is shutting down, not accepting new commands"
    | .other message => message

-----------------------------------------------------------------------------------------
-- Dead letters
-----------------------------------------------------------------------------------------

structure DeadLetter where
  commandId : CommandId
  commandType : String
  laneId : LaneId
  error : String
  attempts : Nat
  failedAt : DateTime

structure DeadLetterQueue where
  letters : List DeadLetter
  maxSize : Nat

namespace DeadLetterQueue

def new (maxSize : Nat) : DeadLetterQueue := { letters := [], maxSize }

/-- A full queue drops its oldest letter. -/
def push (dlq : DeadLetterQueue) (letter : DeadLetter) : DeadLetterQueue :=
  let letters := if dlq.letters.length ≥ dlq.maxSize then dlq.letters.tail else dlq.letters
  { dlq with letters := letters ++ [letter] }

end DeadLetterQueue

-----------------------------------------------------------------------------------------
-- Events and storage calls
-----------------------------------------------------------------------------------------

structure LaneEvent where
  key : String
  payload : List (String × Value) := []

structure StoredCommand where
  id : CommandId
  commandType : String
  laneId : LaneId
  payload : Value
  retryCount : Nat
  createdAt : DateTime
  lastAttemptAt : Option DateTime

-----------------------------------------------------------------------------------------
-- The queue
-----------------------------------------------------------------------------------------

/-- Admission and outstanding work, with the number of permits handed out so far. -/
structure QueueLifecycle where
  isShuttingDown : Bool := false
  outstanding : Nat := 0
  admitted : Nat := 0

/-- The queue. The handles `ι` stand for the shared pointers to its lanes. -/
structure CommandQueue (ι : Type) where
  lane : ι → CommandLane
  lanes : HashMap LaneId ι
  dlq : Option DeadLetterQueue
  lifecycle : QueueLifecycle

namespace CommandQueue

variable {ι : Type}

def new (dlqSize : Option Nat) (lane : ι → CommandLane) : CommandQueue ι :=
  { lane, lanes := ∅, dlq := dlqSize.map DeadLetterQueue.new, lifecycle := {} }

def registerLane (queue : CommandQueue ι) (handle : ι) : CommandQueue ι :=
  { queue with lanes := queue.lanes.insert (queue.lane handle).id handle }

/-- `QueueManagerBuilder::build`: makes the lanes and registers them one after the other. -/
def build (dlqSize : Option Nat) (storage : Bool)
    (laneConfigs : ι → LaneId × LaneConfig × Priority) (order : List ι)
    : CommandQueue ι :=
  order.foldl registerLane
    (.new dlqSize
      (fun handle =>
        let (id, config, priority) := laneConfigs handle
        .new id config priority storage))

/-- Under the admission gate: takes a permit unless the queue is shutting down. -/
def admitPermit (queue : CommandQueue ι) : CommandQueue ι × Result WorkPermit :=
  if queue.lifecycle.isShuttingDown then
    (queue, .error .shutdownInProgress)
  else
    ({ queue with
        lifecycle :=
          { queue.lifecycle with
            outstanding := queue.lifecycle.outstanding + 1
            admitted := queue.lifecycle.admitted + 1 } },
      .ok { serial := queue.lifecycle.admitted })

/-- `WorkPermit::drop`. -/
def dropPermit (queue : CommandQueue ι) : CommandQueue ι :=
  { queue with
    lifecycle :=
      { queue.lifecycle with
        outstanding :=
          if queue.lifecycle.outstanding = 0 then
            u64Max
          else
            queue.lifecycle.outstanding - 1 } }

/-- Under the admission gate: whether this call starts the shutdown. -/
def beginShutdown (queue : CommandQueue ι) : CommandQueue ι × Bool :=
  ({ queue with lifecycle := { queue.lifecycle with isShuttingDown := true } },
    !queue.lifecycle.isShuttingDown)

variable [DecidableEq ι]

/-- Writes one lane. -/
def setLane (queue : CommandQueue ι) (handle : ι) (lane : CommandLane) : CommandQueue ι :=
  { queue with lane := Function.update queue.lane handle lane }

end CommandQueue

end Lane
