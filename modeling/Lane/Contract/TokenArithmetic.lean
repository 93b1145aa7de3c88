import Lane.Command.Lane

/-! Token arithmetic: a refill adds before it caps, and where the sum leaves the range of the
counter the bucket loses tokens.
-/

namespace Lane

namespace TokenBucketLimiter

variable {limiter : TokenBucketLimiter} {config : RateLimitConfig} {newTokens : Nat}

-----------------------------------------------------------------------------------------
-- Buckets in use
-----------------------------------------------------------------------------------------

/-- The bucket after one attempt to acquire for each number of new tokens. -/
def acquireEach (limiter : TokenBucketLimiter) (refills : List Nat) : TokenBucketLimiter :=
  refills.foldl (fun limiter newTokens => (limiter.tryAcquire newTokens).1) limiter

@[simp] theorem refill_capacity (limiter : TokenBucketLimiter) (newTokens : Nat)
    : (limiter.refill newTokens).capacity = limiter.capacity := by
  rw [refill]
  split <;> rfl

@[simp] theorem tryAcquire_capacity (limiter : TokenBucketLimiter) (newTokens : Nat)
    : (limiter.tryAcquire newTokens).1.capacity = limiter.capacity := by
  rw [tryAcquire]
  split <;> exact refill_capacity limiter newTokens

/-- A bucket never holds more than its capacity. -/
def Within (limiter : TokenBucketLimiter) : Prop := limiter.tokens ≤ limiter.capacity

theorem Within.refill (within : limiter.Within) (newTokens : Nat)
    : (limiter.refill newTokens).Within := by
  unfold Within
  rw [TokenBucketLimiter.refill]
  split
  · exact min_le_right _ _
  · exact within

theorem Within.tryAcquire (within : limiter.Within) (newTokens : Nat)
    : (limiter.tryAcquire newTokens).1.Within := by
  have refilled := within.refill newTokens
  unfold Within at refilled ⊢
  rw [TokenBucketLimiter.tryAcquire]
  split
  · exact refilled
  · exact le_trans (Nat.sub_le _ _) refilled

/-- Every bucket in use keeps its capacity and stays within it, by induction on its uses. -/
theorem acquireEach_within (within : limiter.Within) (refills : List Nat)
    : (limiter.acquireEach refills).Within
      ∧ (limiter.acquireEach refills).capacity = limiter.capacity := by
  induction refills generalizing limiter with
  | nil => exact ⟨within, rfl⟩
  | cons newTokens rest ih =>
      obtain ⟨kept, same⟩ := ih (within.tryAcquire newTokens)
      exact ⟨kept, same.trans (tryAcquire_capacity limiter newTokens)⟩

-----------------------------------------------------------------------------------------
-- Refills
-----------------------------------------------------------------------------------------

/-- The bucket after the refill holds the capped sum, and no fewer tokens than before. -/
def RefillsExactly (limiter : TokenBucketLimiter) (newTokens : Nat) : Prop :=
  (limiter.refill newTokens).tokens = min limiter.capacity (limiter.tokens + newTokens)
    ∧ limiter.tokens ≤ (limiter.refill newTokens).tokens

/-- A refill is exact exactly when the sum before the cap is a `u64`. -/
theorem refillsExactly_iff (within : limiter.Within) (capacity : limiter.capacity ≤ u64Max)
    (cast : newTokens ≤ u64Max)
    : limiter.RefillsExactly newTokens ↔ limiter.tokens + newTokens ≤ u64Max := by
  unfold RefillsExactly Within u64Max at *
  rw [refill]
  by_cases fits : limiter.tokens + newTokens ≤ 2 ^ 64 - 1
  · refine iff_of_true ?_ fits
    rw [Nat.mod_eq_of_lt (by omega), min_comm]
    by_cases positive : newTokens > 0
    · rw [if_pos positive]
      exact ⟨rfl, le_min within (Nat.le_add_right _ _)⟩
    · rw [if_neg positive, Nat.eq_zero_of_not_pos positive]
      exact ⟨(min_eq_right within).symm, le_rfl⟩
  · refine iff_of_false ?_ fits
    have wraps : (limiter.tokens + newTokens) % 2 ^ 64 < limiter.tokens := by omega
    rw [if_pos (by omega)]
    exact fun exactly => absurd (le_trans exactly.2 (min_le_left _ _)) (Nat.not_le.mpr wraps)

end TokenBucketLimiter

-----------------------------------------------------------------------------------------
-- The contract
-----------------------------------------------------------------------------------------

open TokenBucketLimiter

/-- A refill by `newTokens` is exact in all runs of a bucket exactly when the whole capacity and
the new tokens add up to a `u64`; in each state of a run it is exact exactly when the tokens
that are left and the new ones do.
-/
theorem token_refills (config : RateLimitConfig) (newTokens : Nat)
    (capacity : config.maxCommands ≤ u64Max) (cast : newTokens ≤ u64Max)
    : ((∀ refills,
          ((TokenBucketLimiter.new config).acquireEach refills).tokens + newTokens ≤ u64Max
          ∧ ((TokenBucketLimiter.new config).acquireEach refills).RefillsExactly newTokens)
        ↔ config.maxCommands + newTokens ≤ u64Max)
      ∧ ∀ refills,
        ((TokenBucketLimiter.new config).acquireEach refills).RefillsExactly newTokens
        ↔ ((TokenBucketLimiter.new config).acquireEach refills).tokens + newTokens ≤ u64Max := by
  have full : (TokenBucketLimiter.new config).Within := le_rfl
  have exact_iff : ∀ refills,
      ((TokenBucketLimiter.new config).acquireEach refills).RefillsExactly newTokens
      ↔ ((TokenBucketLimiter.new config).acquireEach refills).tokens + newTokens ≤ u64Max := by
    intro refills
    obtain ⟨within, same⟩ := acquireEach_within full refills
    exact refillsExactly_iff within (same.trans_le capacity) cast
  refine ⟨⟨fun always => (always []).1, fun fits refills => ?_⟩, exact_iff⟩
  obtain ⟨within, same⟩ := acquireEach_within full refills
  have bounded : ((TokenBucketLimiter.new config).acquireEach refills).tokens + newTokens
      ≤ u64Max :=
    le_trans (Nat.add_le_add_right (within.trans_eq same) newTokens) fits
  exact ⟨bounded, (exact_iff refills).mpr bounded⟩

/-- A bucket of a hundred tokens that has been refilled twice is refilled by a hundred. -/
theorem token_refills_hundred
    : ((TokenBucketLimiter.new ⟨100, 1000000000⟩).acquireEach [0, 30]).RefillsExactly 100 :=
  ((token_refills ⟨100, 1000000000⟩ 100 (by decide) (by decide)).1.mpr (by decide) [0, 30]).2

/-- An unlimited bucket that is full loses a token when it is refilled after more than a second. -/
theorem unlimited_refill_overflows
    : ¬ ((TokenBucketLimiter.new .unlimited).tokens + u64Max ≤ u64Max)
      ∧ ((TokenBucketLimiter.new .unlimited).refill u64Max).tokens
        < (TokenBucketLimiter.new .unlimited).tokens := by
  decide

end Lane
