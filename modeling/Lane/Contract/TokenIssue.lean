import Lane.Command.TokenBucket
import Lane.Library.CreditWindow

/-! Token issue: how many tokens concurrent callers acquire in a stretch of time, where a refill
may overwrite an acquisition, and where a bucket keeps a credit beyond its capacity.
-/

namespace Lane

open CreditWindow TaskPool

-----------------------------------------------------------------------------------------
-- The account of a bucket
-----------------------------------------------------------------------------------------

namespace AtomicBucket

/-- The tokens and what the time since the last refill is worth. -/
def credit (bucket : AtomicBucket) (now : ℚ) : ℚ :=
  bucket.tokens + bucket.refillRate * (now - bucket.lastRefill)

variable {bucket : AtomicBucket} {now : ℚ}

theorem refillRateOf_nonneg (config : RateLimitConfig) : 0 ≤ refillRateOf config :=
  div_nonneg (Nat.cast_nonneg _) (div_nonneg (Nat.cast_nonneg _) (by norm_num))

/-- The new tokens are worth the time since the last refill. -/
theorem newTokens_le (rate_nonneg : 0 ≤ bucket.refillRate) (ordered : bucket.lastRefill ≤ now)
    : (bucket.newTokens now : ℚ) ≤ bucket.refillRate * (now - bucket.lastRefill) := by
  have worth : 0 ≤ (now - bucket.lastRefill) * bucket.refillRate :=
    mul_nonneg (sub_nonneg.mpr ordered) rate_nonneg
  have whole : 0 ≤ ((now - bucket.lastRefill) * bucket.refillRate).floor :=
    Rat.le_floor_iff.mpr (by exact_mod_cast worth)
  have least : bucket.newTokens now
      ≤ ((now - bucket.lastRefill) * bucket.refillRate).floor.toNat := min_le_left _ _
  calc (bucket.newTokens now : ℚ)
      ≤ (((now - bucket.lastRefill) * bucket.refillRate).floor.toNat : ℚ) := by
        exact_mod_cast least
    _ = (((now - bucket.lastRefill) * bucket.refillRate).floor : ℚ) := by
        exact_mod_cast Int.toNat_of_nonneg whole
    _ ≤ (now - bucket.lastRefill) * bucket.refillRate := Rat.floor_le _
    _ = bucket.refillRate * (now - bucket.lastRefill) := mul_comm _ _

end AtomicBucket

/-- What a call that holds the mutex has measured, once it has. -/
def Acquiring.refills : Acquiring → Multiset (Option (ℚ × Nat))
  | .locked => {none}
  | .loading measured newTokens => {some (measured, newTokens)}
  | .storing measured newTokens _ => {some (measured, newTokens)}
  | _ => 0

/-- The acquisitions from `first` to `last` are paid for by the credit, and whoever holds the
mutex has measured no more than has been earned.
-/
structure Account (first last : ℚ) (bucket : AtomicBucket) (shown : List ℚ)
    (refills : Multiset (Option (ℚ × Nat)))
    : Prop where
  paid
    : Paid (bucket.capacity : ℚ) bucket.refillRate first last bucket.clock
        (bucket.credit bucket.clock) shown
  rate_nonneg : 0 ≤ bucket.refillRate
  ordered : bucket.lastRefill ≤ bucket.clock
  exclusive : Multiset.card refills = if bucket.isRefilling then 1 else 0
  earned
    : ∀ measured newTokens, some (measured, newTokens) ∈ refills
      → bucket.lastRefill ≤ measured
        ∧ measured ≤ bucket.clock
        ∧ (newTokens : ℚ) ≤ bucket.refillRate * (measured - bucket.lastRefill)

section Account

variable {first last now : ℚ} {bucket after : AtomicBucket} {shown added : List ℚ}
  {refills others : Multiset (Option (ℚ × Nat))} {call : Acquiring} {next : List Acquiring}

theorem AtomicBucket.credit_nonneg (rate_nonneg : 0 ≤ bucket.refillRate)
    (ordered : bucket.lastRefill ≤ now)
    : 0 ≤ bucket.credit now :=
  add_nonneg (Nat.cast_nonneg _) (mul_nonneg rate_nonneg (sub_nonneg.mpr ordered))

theorem account_new (config : RateLimitConfig) (start : ℚ) (stretch : first ≤ last)
    : Account first last (.new config start) [] 0 where
  paid := paid_nil (Nat.cast_nonneg _) (AtomicBucket.refillRateOf_nonneg config) stretch
  rate_nonneg := AtomicBucket.refillRateOf_nonneg config
  ordered := le_rfl
  exclusive := rfl
  earned _ _ member := absurd member (Multiset.notMem_zero _)

/-- Time goes on. -/
theorem Account.advance (account : Account first last bucket shown refills)
    (stretch : first ≤ last) (later : bucket.clock ≤ now)
    : Account first last { bucket with clock := now } shown refills where
  paid := by
    have grown := account.paid.advance (Nat.cast_nonneg _) account.rate_nonneg stretch
      (AtomicBucket.credit_nonneg account.rate_nonneg account.ordered) later
    have same : bucket.credit bucket.clock + bucket.refillRate * (now - bucket.clock)
        = bucket.credit now := by
      rw [AtomicBucket.credit, AtomicBucket.credit]
      ring
    rwa [same] at grown
  rate_nonneg := account.rate_nonneg
  ordered := le_trans account.ordered later
  exclusive := account.exclusive
  earned measured newTokens member := by
    obtain ⟨since, until_, worth⟩ := account.earned measured newTokens member
    exact ⟨since, le_trans until_ later, worth⟩

/-- Whoever holds the mutex is alone in the refill. -/
theorem Account.alone {holder : Option (ℚ × Nat)}
    (account : Account first last bucket shown ({holder} + others))
    : others = 0 ∧ bucket.isRefilling = true := by
  have held := account.exclusive
  rw [Multiset.card_add, Multiset.card_singleton] at held
  cases locked : bucket.isRefilling with
  | true =>
      rw [locked, if_pos rfl] at held
      exact ⟨Multiset.card_eq_zero.mp (by omega), rfl⟩
  | false =>
      rw [locked, if_neg Bool.false_ne_true] at held
      omega

/-- A step keeps the account if it stores no more than the bucket then holds with the new
tokens, and takes a token only while the credit is within the capacity; by cases on the step.
-/
theorem Acquiring.Segment.account (segment : Segment bucket call after next added)
    (stretch : first ≤ last)
    (account : Account first last bucket shown (call.refills + others))
    (stores
      : ∀ measured newTokens current, call = .storing measured newTokens current
        → bucket.newTotal current newTokens ≤ bucket.tokens + newTokens)
    (takes : ∀ now ∈ added, bucket.credit now ≤ bucket.capacity)
    : Account first last after (shown ++ added) ((next.map Acquiring.refills).sum + others) := by
  cases segment with
  | lock now later free =>
      have kept := account.advance stretch later
      have held := kept.exclusive
      simp only [free, Acquiring.refills, zero_add, Bool.false_eq_true, if_false] at held
      rw [List.append_nil]
      exact
        { paid := kept.paid
          rate_nonneg := kept.rate_nonneg
          ordered := kept.ordered
          exclusive := by simp [Acquiring.refills, held]
          earned := by
            rw [Multiset.card_eq_zero.mp held]
            simp [Acquiring.refills] }
  | due now later elapsed refills =>
      have kept := account.advance stretch later
      obtain ⟨rfl, _⟩ := kept.alone
      rw [List.append_nil]
      exact
        { paid := kept.paid
          rate_nonneg := kept.rate_nonneg
          ordered := kept.ordered
          exclusive := by simpa [Acquiring.refills] using kept.exclusive
          earned := by
            intro measured newTokens member
            simp only [Acquiring.refills, List.map_cons, List.map_nil, List.sum_singleton,
              add_zero, Multiset.mem_singleton, Option.some.injEq, Prod.mk.injEq] at member
            obtain ⟨rfl, rfl⟩ := member
            exact ⟨kept.ordered, le_rfl, AtomicBucket.newTokens_le kept.rate_nonneg kept.ordered⟩ }
  | notDue now later nothing =>
      have kept := account.advance stretch later
      obtain ⟨rfl, _⟩ := kept.alone
      rw [List.append_nil]
      exact
        { paid := kept.paid
          rate_nonneg := kept.rate_nonneg
          ordered := kept.ordered
          exclusive := by simp [Acquiring.refills]
          earned := by simp [Acquiring.refills] }
  | load now later =>
      have kept := account.advance stretch later
      simpa [Acquiring.refills] using kept
  | @store measured newTokens current now later =>
      have kept := account.advance stretch later
      obtain ⟨rfl, _⟩ := kept.alone
      obtain ⟨since, until_, worth⟩ := kept.earned measured newTokens
        (by simp [Acquiring.refills])
      have stored : (bucket.newTotal current newTokens : ℚ) ≤ bucket.tokens + newTokens := by
        exact_mod_cast stores measured newTokens current rfl
      rw [List.append_nil]
      exact
        { paid := by
            apply kept.paid.lose
            apply min_le_min_right
            simp only [AtomicBucket.credit] at worth ⊢
            linarith
          rate_nonneg := kept.rate_nonneg
          ordered := until_
          exclusive := by simp [Acquiring.refills]
          earned := by simp [Acquiring.refills] }
  | limited now later empty =>
      have kept := account.advance stretch later
      simpa [Acquiring.refills] using kept
  | tried now later available =>
      have kept := account.advance stretch later
      simpa [Acquiring.refills] using kept
  | @acquired current available now later same =>
      have kept := account.advance stretch later
      have spent := kept.paid.spend (takes now List.mem_cons_self)
      have less : (current - 1 : Nat) = (current : ℚ) - 1 :=
        Nat.cast_pred (Nat.pos_of_ne_zero available)
      exact
        { paid := by
            simpa only [AtomicBucket.credit, less, same, sub_add_eq_add_sub] using spent
          rate_nonneg := kept.rate_nonneg
          ordered := kept.ordered
          exclusive := by simpa [Acquiring.refills] using kept.exclusive
          earned := by simpa [Acquiring.refills] using kept.earned }
  | changed now later other =>
      have kept := account.advance stretch later
      simpa [Acquiring.refills] using kept

end Account

-----------------------------------------------------------------------------------------
-- Runs of concurrent callers
-----------------------------------------------------------------------------------------

/-- A refill stores no more than the bucket then holds with the new tokens, and a token is taken
only while the tokens and what the time since the last refill is worth fit in the bucket.
-/
def KeepsCredit (pool : BucketPool) : TaskPool.Move Acquiring ℚ → Prop
  | .run (.storing _ newTokens current) _ =>
      pool.shared.newTotal current newTokens ≤ pool.shared.tokens + newTokens
  | .run (.comparing _ _) shown =>
      ∀ now ∈ shown, pool.shared.credit now ≤ pool.shared.capacity
  | _ => True

section Runs

variable {bucket after : AtomicBucket} {call : Acquiring} {next : List Acquiring}
  {added shown : List ℚ} {tasks : Multiset Acquiring}

/-- Only a successful compare-and-exchange shows an acquisition. -/
theorem KeepsCredit.takes (keeps : KeepsCredit ⟨bucket, tasks, shown⟩ (.run call added))
    (segment : Acquiring.Segment bucket call after next added)
    : ∀ now ∈ added, bucket.credit now ≤ bucket.capacity := by
  cases segment with
  | acquired now later same => exact keeps
  | lock | due | notDue | load | store | limited | tried | changed =>
      exact fun now member => absurd member List.not_mem_nil

/-- The limits of a bucket never change. -/
theorem Acquiring.Segment.limits (segment : Segment bucket call after next added)
    : after.capacity = bucket.capacity ∧ after.refillRate = bucket.refillRate := by
  cases segment <;> exact ⟨rfl, rfl⟩

end Runs

-----------------------------------------------------------------------------------------
-- The contract
-----------------------------------------------------------------------------------------

/-- Two tokens in two seconds. -/
def twoTokens : RateLimitConfig := { maxCommands := 2, window := 2000000000 }

/-- Without any concurrency a full bucket keeps the credit of the time that it has been full: a
token taken after nine tenths of a second is back a tenth of a second later.
-/
theorem full_bucket_keeps_credit
    : ∃ pool : BucketPool,
        bucketSystem.Reaches (TaskPool.start (.new ⟨1, 1000000000⟩ 0)) pool
      ∧ pool.shown = [9 / 10, 1]
      ∧ ¬ ((within (9 / 10) (9 / 10 + 1 / 10) pool.shown).length : ℚ)
          ≤ 1 + AtomicBucket.refillRateOf ⟨1, 1000000000⟩ * (1 / 10) := by
  have fresh : bucketSystem.Reaches (TaskPool.start (.new ⟨1, 1000000000⟩ 0))
      ⟨.new ⟨1, 1000000000⟩ 0, ([] : List Acquiring), []⟩ := .refl _
  have called := run_enter fresh .calling trivial
  have locked := run_segment called (.lock (9 / 10) (by decide +kernel) rfl) trivial
  have passed := run_segment locked (.notDue (9 / 10) le_rfl (by decide +kernel)) trivial
  have tried := run_segment passed (.tried (9 / 10) le_rfl (by decide +kernel)) trivial
  have acquired := run_segment tried (.acquired (9 / 10) le_rfl rfl) trivial
  have called := run_enter acquired .calling trivial
  have locked := run_segment called (.lock 1 (by decide +kernel) rfl) trivial
  have due := run_segment locked (.due 1 le_rfl (by decide +kernel) (by decide +kernel)) trivial
  have loaded := run_segment due (.load 1 le_rfl) trivial
  have stored := run_segment loaded (.store 1 le_rfl) trivial
  have tried := run_segment stored (.tried 1 le_rfl (by decide +kernel)) trivial
  have acquired := run_segment tried (.acquired 1 le_rfl rfl) trivial
  exact ⟨_, acquired, rfl, by decide +kernel⟩

end Lane
