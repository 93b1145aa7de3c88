import Lane.Job.Types
import Lane.Library.KeyedSort
import Mathlib.Algebra.Group.Nat.Defs

/-! Command lanes: the pending commands of a lane, its counters, its rate limiter and its
priority booster, and what each section under the lane's lock does.
-/

namespace Lane

open KeyedSort

abbrev LaneId := String
abbrev CommandId := String

/-- Lower numbers go first. -/
abbrev Priority := Nat

def RetryPolicy.shouldRetry (policy : RetryPolicy) (attempt : Nat) : Bool :=
  decide (attempt < policy.maxRetries)

-----------------------------------------------------------------------------------------
-- Rate limits
-----------------------------------------------------------------------------------------

structure RateLimitConfig where
  maxCommands : Nat
  window : Duration

/-- At most so many commands in a second. -/
def RateLimitConfig.perSecond (maxCommands : Nat) : RateLimitConfig :=
  { maxCommands, window := 1000000000 }

/-- No rate limiting. -/
def RateLimitConfig.unlimited : RateLimitConfig :=
  { maxCommands := u64Max, window := 1000000000 }

/-- The tokens that a lane may spend. -/
structure TokenBucketLimiter where
  capacity : Nat
  tokens : Nat

namespace TokenBucketLimiter

def new (config : RateLimitConfig) : TokenBucketLimiter :=
  { capacity := config.maxCommands, tokens := config.maxCommands }

/-- Adds the whole tokens that the time since the last refill is worth, a floating-point
product.
-/
def refill (limiter : TokenBucketLimiter) (newTokens : Nat) : TokenBucketLimiter :=
  if newTokens > 0 then
    { limiter with tokens := min ((limiter.tokens + newTokens) % 2 ^ 64) limiter.capacity }
  else
    limiter

def tryAcquire (limiter : TokenBucketLimiter) (newTokens : Nat) : TokenBucketLimiter × Bool :=
  let limiter := limiter.refill newTokens
  if limiter.tokens = 0 then
    (limiter, false)
  else
    ({ limiter with tokens := limiter.tokens - 1 }, true)

end TokenBucketLimiter

-----------------------------------------------------------------------------------------
-- Priority boosts
-----------------------------------------------------------------------------------------

structure PriorityBoostConfig where
  enabled : Bool
  deadline : Duration
  boostIntervals : List (Duration × Nat)

namespace PriorityBoostConfig

def new (deadline : Duration) : PriorityBoostConfig :=
  { enabled := true, deadline, boostIntervals := [] }

/-- The new interval is appended, and the stable sort puts the largest thresholds first. -/
def withBoost (config : PriorityBoostConfig) (timeBeforeDeadline : Duration) (boost : Nat)
    : PriorityBoostConfig :=
  { config with
    boostIntervals := sortDown Prod.fst (config.boostIntervals ++ [(timeBeforeDeadline, boost)]) }

end PriorityBoostConfig

structure PriorityBooster where
  config : PriorityBoostConfig

/-- The boosted priority, or none where the sum of times panics. -/
def PriorityBooster.calculatePriority (booster : PriorityBooster) (basePriority : Priority)
    (createdAt now : DateTime)
    : Option Priority :=
  if booster.config.enabled = false then
    some basePriority
  else
    match checkedAddSigned createdAt ((durationFromStd booster.config.deadline).getD 0) with
    | none => none
    | some deadline =>
        if deadline ≤ now then
          some 0
        else
          let timeRemaining := ((deadline - now) / nanosPerMilli).toNat * nanosPerMilli
          let boost :=
            booster.config.boostIntervals.foldl
              (fun boost (threshold, boostAmount) =>
                if timeRemaining ≤ threshold then boostAmount else boost) 0
          some (basePriority - boost)

-----------------------------------------------------------------------------------------
-- Commands
-----------------------------------------------------------------------------------------

/-- A command. What its execution returns is up to the one who wrote it. -/
structure Command where
  commandType : String

/-- Ownership of one accepted command. Permits are told apart by the order of admission. -/
structure WorkPermit where
  serial : Nat
deriving DecidableEq

/-- A command with its permit and the channel on which its result is sent. The channel has the
number of the permit.
-/
structure CommandWrapper where
  id : CommandId
  command : Command
  resultTx : Option Nat
  timeout : Option Duration
  retryPolicy : RetryPolicy
  attempt : Nat
  laneId : LaneId
  commandType : String
  workPermit : WorkPermit
  enqueueTime : DateTime

-----------------------------------------------------------------------------------------
-- Lanes
-----------------------------------------------------------------------------------------

structure LaneConfig where
  minConcurrency : Nat := 1
  maxConcurrency : Nat := 4
  defaultTimeout : Option Duration := none
  retryPolicy : RetryPolicy := .none
  rateLimit : Option RateLimitConfig := none
  priorityBoost : Option PriorityBoostConfig := none
  pressureThreshold : Option Nat := none

/-- What the lock of a lane guards. -/
structure LaneState where
  config : LaneConfig
  priority : Priority
  pending : List CommandWrapper
  active : Nat
  delayedRetries : Nat
  isPressured : Bool

namespace LaneState

def new (config : LaneConfig) (priority : Priority) : LaneState :=
  { config, priority, pending := [], active := 0, delayedRetries := 0, isPressured := false }

def hasCapacity (state : LaneState) : Bool :=
  decide (state.active < state.config.maxConcurrency)

def hasPending (state : LaneState) : Bool := !state.pending.isEmpty

end LaneState

structure LaneStatus where
  pending : Nat
  active : Nat
  min : Nat
  max : Nat

/-- `Lane`. Of its storage only the presence counts, since storage errors are ignored. -/
structure CommandLane where
  id : LaneId
  state : LaneState
  storage : Bool
  rateLimiter : Option TokenBucketLimiter
  booster : Option PriorityBooster

namespace CommandLane

def new (id : LaneId) (config : LaneConfig) (priority : Priority) (storage : Bool)
    : CommandLane :=
  { id
    state := .new config priority
    storage
    rateLimiter := config.rateLimit.map TokenBucketLimiter.new
    booster := config.priorityBoost.map PriorityBooster.mk }

/-- The priority with the boost for the age of the front command, or none where it panics. -/
def effectivePriority (lane : CommandLane) (now : DateTime) : Option Priority :=
  match lane.booster, lane.state.pending.head? with
  | some booster, some front =>
      booster.calculatePriority lane.state.priority front.enqueueTime now
  | _, _ => some lane.state.priority

/-- The last section of `enqueue_with_permit`. -/
def enqueue (lane : CommandLane) (wrapper : CommandWrapper) : CommandLane :=
  { lane with state := { lane.state with pending := lane.state.pending ++ [wrapper] } }

/-- The section of `retry_command` that counts a delayed retry. -/
def countRetry (lane : CommandLane) : CommandLane :=
  { lane with state := { lane.state with delayedRetries := lane.state.delayedRetries + 1 } }

/-- What the timer of `retry_command` does when it fires. -/
def requeue (lane : CommandLane) (wrapper : CommandWrapper) : CommandLane :=
  { lane with
    state :=
      { lane.state with
        delayedRetries := lane.state.delayedRetries - 1
        pending := lane.state.pending ++ [wrapper] } }

/-- The first part of `try_dequeue`: the rate limiter is asked before the lock is taken. -/
def tryAcquire (lane : CommandLane) (newTokens : Nat) : CommandLane × Bool :=
  match lane.rateLimiter with
  | none => (lane, true)
  | some limiter =>
      let (limiter, acquired) := limiter.tryAcquire newTokens
      ({ lane with rateLimiter := some limiter }, acquired)

/-- The section of `try_dequeue` under the lock. -/
def tryDequeue (lane : CommandLane) : CommandLane × Option CommandWrapper :=
  if lane.state.hasCapacity && lane.state.hasPending then
    ({ lane with
        state :=
          { lane.state with
            active := lane.state.active + 1
            pending := lane.state.pending.tail } },
      lane.state.pending.head?)
  else
    (lane, none)

def markCompleted (lane : CommandLane) : CommandLane :=
  { lane with state := { lane.state with active := lane.state.active - 1 } }

def status (lane : CommandLane) : LaneStatus :=
  { pending := lane.state.pending.length + lane.state.delayedRetries
    active := lane.state.active
    min := lane.state.config.minConcurrency
    max := lane.state.config.maxConcurrency }

def isIdle (lane : CommandLane) : Bool :=
  lane.state.pending.isEmpty && lane.state.active == 0 && lane.state.delayedRetries == 0

/-- The event key of a pressure transition, if one occurs. -/
def checkPressure (lane : CommandLane) : CommandLane × Option String :=
  match lane.state.config.pressureThreshold with
  | none => (lane, none)
  | some threshold =>
      let pending := lane.state.pending.length
      if pending ≥ threshold && !lane.state.isPressured then
        ({ lane with state := { lane.state with isPressured := true } },
          some "queue.lane.pressure")
      else if pending == 0 && lane.state.isPressured then
        ({ lane with state := { lane.state with isPressured := false } },
          some "queue.lane.idle")
      else
        (lane, none)

end CommandLane

end Lane
