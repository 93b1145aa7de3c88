import Lane.Command.Lane
import Lane.Library.TaskPool
import Mathlib.Data.Rat.Floor

/-! The token bucket under concurrent callers. Its counter is an atomic that acquirers decrement
by compare-and-exchange, while a refill loads and stores it under a mutex of its own; every such
access is one step, and the steps of all callers may interleave. Times are exact.
-/

namespace Lane

-----------------------------------------------------------------------------------------
-- The bucket
-----------------------------------------------------------------------------------------

/-- `TokenBucketLimiter` with its counter, its mutex and the instant of the latest step. -/
structure AtomicBucket where
  capacity : Nat
  tokens : Nat
  refillRate : ℚ
  lastRefill : ℚ
  isRefilling : Bool
  clock : ℚ

namespace AtomicBucket

/-- Tokens for each second; the window is not empty. -/
def refillRateOf (config : RateLimitConfig) : ℚ :=
  config.maxCommands / ((config.window : ℚ) / 1000000000)

def new (config : RateLimitConfig) (now : ℚ) : AtomicBucket :=
  { capacity := config.maxCommands
    tokens := config.maxCommands
    refillRate := refillRateOf config
    lastRefill := now
    isRefilling := false
    clock := now }

/-- The whole tokens that the time since the last refill is worth; the cast saturates. -/
def newTokens (bucket : AtomicBucket) (now : ℚ) : Nat :=
  min ((now - bucket.lastRefill) * bucket.refillRate).floor.toNat u64Max

/-- What a refill stores when it has loaded `current`. -/
def newTotal (bucket : AtomicBucket) (current newTokens : Nat) : Nat :=
  min ((current + newTokens) % 2 ^ 64) bucket.capacity

/-- The bucket as its callers see it one after the other. -/
def limiter (bucket : AtomicBucket) : TokenBucketLimiter :=
  { capacity := bucket.capacity, tokens := bucket.tokens }

end AtomicBucket

-----------------------------------------------------------------------------------------
-- The callers
-----------------------------------------------------------------------------------------

/-- A call of `try_acquire` between two of its steps. -/
inductive Acquiring where
  -- `refill`
  | calling
  | locked
  | loading (now : ℚ) (newTokens : Nat)
  | storing (now : ℚ) (newTokens current : Nat)
  -- the loop of `try_acquire`
  | trying
  | comparing (current : Nat) (available : current ≠ 0)

namespace Acquiring

inductive Entry : Acquiring → Prop
  | calling : Entry .calling

/-- One step of a call at the instant `now`; a call that acquires a token shows the instant. -/
inductive Segment : AtomicBucket → Acquiring → AtomicBucket → List Acquiring → List ℚ → Prop
  | lock {bucket : AtomicBucket} (now : ℚ) (later : bucket.clock ≤ now)
    (free : bucket.isRefilling = false)
    : Segment bucket .calling { bucket with clock := now, isRefilling := true } [.locked] []
  | due {bucket : AtomicBucket} (now : ℚ) (later : bucket.clock ≤ now)
    (elapsed : now - bucket.lastRefill > 0) (refills : bucket.newTokens now > 0)
    : Segment bucket .locked { bucket with clock := now }
        [.loading now (bucket.newTokens now)] []
  | notDue {bucket : AtomicBucket} (now : ℚ) (later : bucket.clock ≤ now)
    (nothing : ¬ (now - bucket.lastRefill > 0 ∧ bucket.newTokens now > 0))
    : Segment bucket .locked { bucket with clock := now, isRefilling := false } [.trying] []
  | load {bucket : AtomicBucket} {measured : ℚ} {newTokens : Nat} (now : ℚ)
    (later : bucket.clock ≤ now)
    : Segment bucket (.loading measured newTokens) { bucket with clock := now }
        [.storing measured newTokens bucket.tokens] []
  | store {bucket : AtomicBucket} {measured : ℚ} {newTokens current : Nat} (now : ℚ)
    (later : bucket.clock ≤ now)
    : Segment bucket (.storing measured newTokens current)
        { bucket with
          clock := now
          tokens := bucket.newTotal current newTokens
          lastRefill := measured
          isRefilling := false }
        [.trying] []
  | limited {bucket : AtomicBucket} (now : ℚ) (later : bucket.clock ≤ now)
    (empty : bucket.tokens = 0)
    : Segment bucket .trying { bucket with clock := now } [] []
  | tried {bucket : AtomicBucket} (now : ℚ) (later : bucket.clock ≤ now)
    (available : bucket.tokens ≠ 0)
    : Segment bucket .trying { bucket with clock := now } [.comparing bucket.tokens available] []
  | acquired {bucket : AtomicBucket} {current : Nat} {available : current ≠ 0} (now : ℚ)
    (later : bucket.clock ≤ now) (same : bucket.tokens = current)
    : Segment bucket (.comparing current available)
        { bucket with clock := now, tokens := current - 1 } [] [now]
  | changed {bucket : AtomicBucket} {current : Nat} {available : current ≠ 0} (now : ℚ)
    (later : bucket.clock ≤ now) (other : bucket.tokens ≠ current)
    : Segment bucket (.comparing current available) { bucket with clock := now } [.trying] []

end Acquiring

/-- The bucket with its callers; what they show are the instants of the acquisitions. -/
abbrev BucketPool := TaskPool AtomicBucket Acquiring ℚ

def bucketSystem : LabelledSystem BucketPool (TaskPool.Move Acquiring ℚ) :=
  TaskPool.system Acquiring.Entry Acquiring.Segment

open TaskPool

-----------------------------------------------------------------------------------------
-- One call after the other
-----------------------------------------------------------------------------------------

namespace AtomicBucket

/-- Tokens are only due when time has passed. -/
theorem elapsed_of_newTokens {bucket : AtomicBucket} {now : ℚ} (refills : bucket.newTokens now > 0)
    : now - bucket.lastRefill ≠ 0 := by
  intro zero
  rw [newTokens, zero, zero_mul] at refills
  exact absurd refills (by decide)

end AtomicBucket

section Undisturbed

variable {start : BucketPool} {bucket : AtomicBucket} {now : ℚ} {shown : List ℚ}

/-- The loop of a call that no other one disturbs takes a token if there is one. -/
theorem undisturbed_loop
    (reaches : bucketSystem.Reaches start ⟨bucket, ([.trying] : List Acquiring), shown⟩)
    (later : bucket.clock ≤ now)
    : ∃ after, bucketSystem.Reaches start
          ⟨after, 0, shown ++ if bucket.tokens = 0 then [] else [now]⟩
        ∧ after.limiter = { bucket.limiter with tokens := bucket.tokens - 1 } := by
  by_cases empty : bucket.tokens = 0
  · have limited := run_segment reaches (.limited now later empty) trivial
    refine ⟨{ bucket with clock := now }, ?_, ?_⟩
    · rw [if_pos empty]
      exact limited
    · simp only [AtomicBucket.limiter, empty]
  · have tried := run_segment reaches (.tried now later empty) trivial
    have acquired := run_segment tried (.acquired now le_rfl rfl) trivial
    refine ⟨{ bucket with clock := now, tokens := bucket.tokens - 1 }, ?_, rfl⟩
    rw [if_neg empty]
    simp only [List.append_nil] at acquired
    exact acquired

/-- The refill of a call that no other one disturbs. -/
theorem undisturbed_refill (later : bucket.clock ≤ now) (ordered : bucket.lastRefill ≤ now)
    (free : bucket.isRefilling = false)
    : ∃ after, bucketSystem.Reaches ⟨bucket, ([.calling] : List Acquiring), shown⟩
          ⟨after, ([.trying] : List Acquiring), shown⟩
        ∧ after.clock ≤ now
        ∧ after.limiter = bucket.limiter.refill (bucket.newTokens now) := by
  have called : bucketSystem.Reaches ⟨bucket, ([.calling] : List Acquiring), shown⟩
      ⟨bucket, ([.calling] : List Acquiring), shown⟩ := .refl _
  have locked := run_segment called (.lock now later free) trivial
  by_cases refills : bucket.newTokens now > 0
  · have elapsed : now - bucket.lastRefill > 0 :=
      lt_of_le_of_ne (sub_nonneg.mpr ordered) (AtomicBucket.elapsed_of_newTokens refills).symm
    have due := run_segment locked (.due now le_rfl elapsed refills) trivial
    have loaded := run_segment due (.load now le_rfl) trivial
    have stored := run_segment loaded (.store now le_rfl) trivial
    refine ⟨{ bucket with
      clock := now
      tokens := bucket.newTotal bucket.tokens (bucket.newTokens now)
      lastRefill := now
      isRefilling := false }, ?_, le_rfl, ?_⟩
    · simp only [List.append_nil] at stored
      exact stored
    · rw [TokenBucketLimiter.refill, if_pos refills]
      rfl
  · have notDue := run_segment locked (.notDue now le_rfl (fun due => refills due.2)) trivial
    refine ⟨{ bucket with clock := now, isRefilling := false }, ?_, le_rfl, ?_⟩
    · simp only [List.append_nil] at notDue
      exact notDue
    · rw [TokenBucketLimiter.refill, if_neg refills]
      rfl

/-- A call that no other one disturbs acts on the bucket as one acquisition. -/
theorem undisturbed_call (later : bucket.clock ≤ now) (ordered : bucket.lastRefill ≤ now)
    (free : bucket.isRefilling = false)
    : ∃ after, bucketSystem.Reaches ⟨bucket, ([.calling] : List Acquiring), shown⟩
          ⟨after, 0,
            shown ++ if (bucket.limiter.tryAcquire (bucket.newTokens now)).2 then [now] else []⟩
        ∧ after.limiter = (bucket.limiter.tryAcquire (bucket.newTokens now)).1 := by
  obtain ⟨refilled, reaches, clock, limiter⟩ := undisturbed_refill later ordered free
  obtain ⟨after, ends, last⟩ := undisturbed_loop reaches clock
  have tokens : (bucket.limiter.refill (bucket.newTokens now)).tokens = refilled.tokens := by
    rw [← limiter]
    rfl
  refine ⟨after, ?_, ?_⟩
  · rw [TokenBucketLimiter.tryAcquire]
    by_cases empty : refilled.tokens = 0
    · simpa [tokens, empty] using ends
    · simpa [tokens, empty] using ends
  · rw [TokenBucketLimiter.tryAcquire, last, limiter]
    by_cases empty : refilled.tokens = 0
    · simp only [tokens, empty, if_true]
      rw [← limiter]
      simp only [AtomicBucket.limiter, empty]
    · simp only [tokens, empty, if_false]

end Undisturbed

end Lane
