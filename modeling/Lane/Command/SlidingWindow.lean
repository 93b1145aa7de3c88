import Lane.Command.Lane
import Lane.Library.LabelledSystem

/-! The sliding window limiter under concurrent callers. Each call holds the mutex from before it
reads the clock until it returns, so calls follow each other; the clock does not run backwards.
-/

namespace Lane

/-- Instants are nanoseconds on the monotonic clock. -/
structure SlidingWindowLimiter where
  maxCommands : Nat
  window : Duration
  timestamps : List Int

namespace SlidingWindowLimiter

def new (config : RateLimitConfig) : SlidingWindowLimiter :=
  { maxCommands := config.maxCommands, window := config.window, timestamps := [] }

/-- `now - self.window`, which panics when it lies before the earliest instant. -/
def windowStart (limiter : SlidingWindowLimiter) (earliest now : Int) : Option Int :=
  if earliest ≤ now - limiter.window then some (now - limiter.window) else none

/-- Expired timestamps are removed. -/
def retain (limiter : SlidingWindowLimiter) (windowStart : Int) : SlidingWindowLimiter :=
  { limiter with timestamps := limiter.timestamps.filter (fun ts => windowStart < ts) }

def tryAcquire (limiter : SlidingWindowLimiter) (earliest now : Int)
    : Option (SlidingWindowLimiter × Bool) := do
  let windowStart ← limiter.windowStart earliest now
  let limiter := limiter.retain windowStart
  if limiter.timestamps.length < limiter.maxCommands then
    some ({ limiter with timestamps := limiter.timestamps ++ [now] }, true)
  else
    some (limiter, false)

def currentCount (limiter : SlidingWindowLimiter) (earliest now : Int)
    : Option (SlidingWindowLimiter × Nat) := do
  let windowStart ← limiter.windowStart earliest now
  let limiter := limiter.retain windowStart
  some (limiter, limiter.timestamps.length)

def remaining (limiter : SlidingWindowLimiter) (earliest now : Int)
    : Option (SlidingWindowLimiter × Nat) := do
  let (limiter, count) ← limiter.currentCount earliest now
  some (limiter, limiter.maxCommands - count)

end SlidingWindowLimiter

/-- What callers do; `acquire` tries again and again. -/
inductive WindowCall where
  | tryAcquire
  | currentCount
  | remaining

/-- A limiter with the latest reading of the clock and the instants at which it was acquired. -/
structure WindowHistory where
  limiter : SlidingWindowLimiter
  clock : Int
  acquired : List Int

namespace WindowHistory

/-- The limiter after a call that reads the clock at `now`, and whether the call acquired it; a
panic leaves the limiter as it was.
-/
def served (limiter : SlidingWindowLimiter) (earliest now : Int)
    : WindowCall → SlidingWindowLimiter × Bool
  | .tryAcquire => (limiter.tryAcquire earliest now).getD (limiter, false)
  | .currentCount => (((limiter.currentCount earliest now).map Prod.fst).getD limiter, false)
  | .remaining => (((limiter.remaining earliest now).map Prod.fst).getD limiter, false)

/-- The history with one more call. -/
def after (history : WindowHistory) (earliest now : Int) (call : WindowCall) : WindowHistory :=
  let (limiter, acquired) := served history.limiter earliest now call
  { limiter
    clock := now
    acquired := if acquired then history.acquired ++ [now] else history.acquired }

/-- A limiter that nobody has called. -/
def start (config : RateLimitConfig) (clock : Int) : WindowHistory :=
  { limiter := .new config, clock, acquired := [] }

end WindowHistory

/-- Any caller may call at any time. -/
def windowSystem (earliest : Int) : LabelledSystem WindowHistory WindowCall where
  Step before call after :=
    ∃ now, before.clock ≤ now ∧ after = before.after earliest now call

end Lane
