import Lane.Library.Double
import Lane.Redis.WaitingScore

/-! Waiting scores as the doubles that Lua and the sorted set hold: the range in which they are
exact, and the order that survives.
-/

namespace Lane

-----------------------------------------------------------------------------------------
-- Stored scores
-----------------------------------------------------------------------------------------

/-- Half of the room that one priority has. -/
def halfBucket : Int := 500000000000

/-- The place of a sequence number in its half of the bucket. -/
def sequenceIndex (sequence : Nat) : Int := (sequence : Int) % halfBucket

/-- The score that reaches the sorted set: every operation of the script rounds to a double. -/
def storedScore (job : Job) : Int :=
  let base := Double.round (job.priority * waitingScoreBucket)
  if job.enqueuedSeq = 0 then
    base
  else if job.options.lifo then
    Double.round (base + Double.round (Double.round (halfBucket - 1) - sequenceIndex job.enqueuedSeq))
  else
    Double.round (Double.round (base + halfBucket) + sequenceIndex job.enqueuedSeq)

/-- The scores of both jobs are within the exact range, and jobs with different sequence numbers
have different scores that put them in claim order.
-/
structure ScoresInOrder (a b : Job) : Prop where
  left : waitingScore a ≤ Double.exactLimit
  right : waitingScore b ≤ Double.exactLimit
  ordered : a.enqueuedSeq ≠ b.enqueuedSeq →
    storedScore a ≠ storedScore b
      ∧ compare (storedScore a) (storedScore b) = compareWaitingOrder a b

/-- Up to priority 9006 every score is exact. At 9007 released jobs still are, and newest-first
jobs whose index is high enough.
-/
def ScoreFits (job : Job) : Prop :=
  if job.enqueuedSeq = 0 then
    (job.priority : Int) ≤ 9007
  else
    (job.priority : Int) ≤ 9006
      ∨ (job.priority : Int) = 9007 ∧ job.options.lifo = true ∧ 300745259007 ≤ sequenceIndex job.enqueuedSeq

/-- Drawn sequence numbers of one kind wrap around together, and a newest-first job does not come
down to the place of the released jobs.
-/
def IndexesInOrder (a b : Job) : Prop :=
  if a.enqueuedSeq = 0 then
    b.options.lifo = true → sequenceIndex b.enqueuedSeq ≠ halfBucket - 1
  else if b.enqueuedSeq = 0 then
    a.options.lifo = true → sequenceIndex a.enqueuedSeq ≠ halfBucket - 1
  else
    a.options.lifo = b.options.lifo →
      compare (sequenceIndex a.enqueuedSeq) (sequenceIndex b.enqueuedSeq)
        = compare a.enqueuedSeq b.enqueuedSeq

variable {a b job : Job}

theorem sequenceIndex_bounds (sequence : Nat)
    : 0 ≤ sequenceIndex sequence ∧ sequenceIndex sequence < halfBucket := by
  unfold sequenceIndex halfBucket
  omega

/-- The place of a job within its priority, whatever its sequence number. -/
def scoreOffset (job : Job) : Int :=
  if job.enqueuedSeq = 0 then
    0
  else if job.options.lifo then
    halfBucket - 1 - sequenceIndex job.enqueuedSeq
  else
    halfBucket + sequenceIndex job.enqueuedSeq

theorem waitingScore_eq_offset (job : Job)
    : waitingScore job = job.priority * waitingScoreBucket + scoreOffset job := by
  have half : waitingScoreBucket / 2 = halfBucket := rfl
  unfold waitingScore scoreOffset
  split
  · simp [pushBackWaitingScore]
  · simp only [waitingScoreFor, half, sequenceIndex]
    split
    · rfl
    · exact Int.add_assoc ..

/-- The exact range in terms of priority and index. -/
theorem scoreFits_iff : ScoreFits job ↔ waitingScore job ≤ Double.exactLimit := by
  have bounds := sequenceIndex_bounds job.enqueuedSeq
  rw [waitingScore_eq_offset]
  unfold ScoreFits scoreOffset Double.exactLimit waitingScoreBucket
  unfold halfBucket at bounds ⊢
  generalize sequenceIndex job.enqueuedSeq = index at bounds ⊢
  by_cases released : job.enqueuedSeq = 0
  · rw [if_pos released, if_pos released]
    omega
  · rw [if_neg released, if_neg released]
    cases job.options.lifo
    · simp only [Bool.false_eq_true, if_false, false_and, and_false, or_false]
      omega
    · simp only [if_true, true_and]
      omega

/-- Within the exact range no operation of the script rounds. -/
theorem storedScore_eq (within : waitingScore job ≤ Double.exactLimit)
    : storedScore job = waitingScore job := by
  have bounds := sequenceIndex_bounds job.enqueuedSeq
  rw [waitingScore_eq_offset] at within ⊢
  unfold storedScore
  unfold scoreOffset waitingScoreBucket at *
  generalize sequenceIndex job.enqueuedSeq = index at bounds within ⊢
  by_cases released : job.enqueuedSeq = 0
  · rw [if_pos released] at within ⊢
    rw [if_pos released, Double.round_of_le (by omega) (by omega)]
    omega
  · rw [if_neg released] at within ⊢
    rw [if_neg released]
    unfold halfBucket at *
    have limit : ((Double.exactLimit : Nat) : Int) = 9007199254740992 := rfl
    cases lifo : job.options.lifo
    · simp only [lifo, Bool.false_eq_true, if_false] at within ⊢
      have base := Double.round_of_le (n := job.priority * 1000000000000) (by omega) (by omega)
      have half := Double.round_of_le (n := job.priority * 1000000000000 + 500000000000) (by omega) (by omega)
      rw [base, half, Double.round_of_le (by omega) (by omega)]
      omega
    · simp only [lifo, if_true] at within ⊢
      have base := Double.round_of_le (n := job.priority * 1000000000000) (by omega) (by omega)
      have half := Double.round_of_le (n := 500000000000 - 1) (by omega) (by omega)
      have offset := Double.round_of_le (n := 500000000000 - 1 - index) (by omega) (by omega)
      rw [base, half, offset, Double.round_of_le (by omega) (by omega)]

/-- Within the exact range the order of the stored scores is that of the offsets. -/
theorem compare_storedScore (samePriority : a.priority = b.priority)
    (left : waitingScore a ≤ Double.exactLimit) (right : waitingScore b ≤ Double.exactLimit)
    : compare (storedScore a) (storedScore b) = compare (scoreOffset a) (scoreOffset b) := by
  rw [storedScore_eq left, storedScore_eq right, waitingScore_eq_offset, waitingScore_eq_offset,
    samePriority]
  exact compare_congr (by omega) (by omega)

/-- Jobs with different sequence numbers are told apart by the waiting order. -/
theorem compareWaitingOrder_ne (apart : a.enqueuedSeq ≠ b.enqueuedSeq)
    : compareWaitingOrder a b ≠ .eq := by
  unfold compareWaitingOrder
  by_cases released : a.enqueuedSeq = 0
  · have drawn : b.enqueuedSeq ≠ 0 := fun other => apart (released.trans other.symm)
    rw [beq_iff_eq.mpr released, beq_eq_false_iff_ne.mpr drawn]
    nofun
  · by_cases otherReleased : b.enqueuedSeq = 0
    · rw [beq_eq_false_iff_ne.mpr released, beq_iff_eq.mpr otherReleased]
      nofun
    · rw [beq_eq_false_iff_ne.mpr released, beq_eq_false_iff_ne.mpr otherReleased]
      cases a.options.lifo <;> cases b.options.lifo
      · exact fun same => apart (compare_eq_iff_eq.mp same)
      · nofun
      · nofun
      · exact fun same => apart (compare_eq_iff_eq.mp same).symm

/-- The offsets give the waiting order exactly if the indexes do. -/
theorem compare_scoreOffset_iff (apart : a.enqueuedSeq ≠ b.enqueuedSeq)
    : compare (scoreOffset a) (scoreOffset b) = compareWaitingOrder a b ↔ IndexesInOrder a b := by
  have bounds := sequenceIndex_bounds a.enqueuedSeq
  have otherBounds := sequenceIndex_bounds b.enqueuedSeq
  unfold scoreOffset compareWaitingOrder IndexesInOrder
  unfold halfBucket at *
  by_cases released : a.enqueuedSeq = 0
  · have drawn : b.enqueuedSeq ≠ 0 := fun other => apart (released.trans other.symm)
    rw [if_pos released, if_neg drawn, if_pos released, beq_iff_eq.mpr released,
      beq_eq_false_iff_ne.mpr drawn, compare_lt_iff_lt]
    cases b.options.lifo
    · simp only [Bool.false_eq_true, if_false, false_implies, iff_true]
      omega
    · simp only [if_true, true_implies]
      omega
  · by_cases otherReleased : b.enqueuedSeq = 0
    · rw [if_neg released, if_pos otherReleased, if_neg released, if_pos otherReleased,
        beq_eq_false_iff_ne.mpr released, beq_iff_eq.mpr otherReleased, compare_gt_iff_gt]
      cases a.options.lifo
      · simp only [Bool.false_eq_true, if_false, false_implies, iff_true]
        omega
      · simp only [if_true, true_implies]
        omega
    · rw [if_neg released, if_neg otherReleased, if_neg released, if_neg otherReleased,
        beq_eq_false_iff_ne.mpr released, beq_eq_false_iff_ne.mpr otherReleased]
      cases a.options.lifo <;> cases b.options.lifo
      · have shifted (x y : Int) : compare (500000000000 + x) (500000000000 + y) = compare x y :=
          compare_congr (by omega) (by omega)
        simp only [Bool.false_eq_true, if_false, true_implies]
        rw [shifted]
      · simp only [Bool.false_eq_true, if_false, if_true, false_implies, iff_true]
        exact compare_gt_iff_gt.mpr (by omega)
      · simp only [Bool.true_eq_false, Bool.false_eq_true, if_false, if_true, false_implies, iff_true]
        exact compare_lt_iff_lt.mpr (by omega)
      · have mirrored (x y : Int)
            : compare (500000000000 - 1 - x) (500000000000 - 1 - y) = compare y x :=
          compare_congr (by omega) (by omega)
        simp only [if_true, true_implies]
        rw [mirrored, Std.OrientedOrd.eq_swap (b := sequenceIndex a.enqueuedSeq),
          Std.OrientedOrd.eq_swap (a := b.enqueuedSeq)]
        exact Ordering.swap_inj

/-- A job as it waits under a sequence number. -/
def jobUnder (options : JobOptions) (enqueuedSeq : Nat) : Job :=
  { Job.new "queue" "work" .null options 0 "job" with enqueuedSeq }

end Lane
