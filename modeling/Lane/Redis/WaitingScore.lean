import Lane.Job.Processing
import Lane.Library.Comparison

/-! The sorted-set score of a waiting job. The scripts pack priority, release, LIFO and FIFO
order into one number; sorting by that number and then by id is the claim order.
-/

namespace Lane

-----------------------------------------------------------------------------------------
-- Scores
-----------------------------------------------------------------------------------------

/-- `WAITING_SCORE_BUCKET`: the room that one priority has. -/
def waitingScoreBucket : Int := 1000000000000

/-- The score of a job that draws a sequence number, as every script computes it. -/
def waitingScoreFor (priority sequence : Nat) (job : Job) (bucket : Int) : Int :=
  let halfBucket := bucket / 2
  let sequenceIndex := (sequence : Int) % halfBucket
  if job.options.lifo then
    priority * bucket + (halfBucket - 1 - sequenceIndex)
  else
    priority * bucket + halfBucket + sequenceIndex

/-- The score with which `push_back_waiting_job` returns a released job, under sequence 0. -/
def pushBackWaitingScore (priority : Nat) (bucket : Int) : Int := priority * bucket

/-- The score under which a waiting job is stored. -/
def waitingScore (job : Job) : Int :=
  if job.enqueuedSeq = 0 then
    pushBackWaitingScore job.priority waitingScoreBucket
  else
    waitingScoreFor job.priority job.enqueuedSeq job waitingScoreBucket

/-- The order of a sorted set: by score, then by member. -/
def compareWaitingScore (a b : Job) : Ordering :=
  (compare (waitingScore a) (waitingScore b)).then (compare a.id b.id)

-----------------------------------------------------------------------------------------
-- Offsets within a priority
-----------------------------------------------------------------------------------------

/-- Sequence numbers that stay in their half of the bucket. -/
def sequenceLimit : Nat := 499999999999

/-- The place of a waiting job within its priority. -/
def waitingOffset (job : Job) : Int :=
  if job.enqueuedSeq = 0 then
    0
  else if job.options.lifo then
    499999999999 - job.enqueuedSeq
  else
    500000000000 + job.enqueuedSeq

variable {a b job : Job}

theorem waitingScore_eq (below : job.enqueuedSeq < sequenceLimit)
    : waitingScore job = job.priority * waitingScoreBucket + waitingOffset job := by
  have index : (job.enqueuedSeq : Int) % (waitingScoreBucket / 2) = job.enqueuedSeq := by
    unfold waitingScoreBucket
    unfold sequenceLimit at below
    omega
  unfold waitingScore waitingOffset
  split
  · simp [pushBackWaitingScore]
  · simp only [waitingScoreFor, index]
    unfold waitingScoreBucket
    split <;> omega

theorem waitingOffset_bounds (below : job.enqueuedSeq < sequenceLimit)
    : 0 ≤ waitingOffset job ∧ waitingOffset job < waitingScoreBucket := by
  unfold waitingOffset waitingScoreBucket
  unfold sequenceLimit at below
  split
  · omega
  · split <;> omega

/-- Released jobs come first, then LIFO jobs newest first, then FIFO jobs oldest first. -/
theorem compare_waitingOffset (below : a.enqueuedSeq < sequenceLimit)
    (otherBelow : b.enqueuedSeq < sequenceLimit)
    (drawn : a.enqueuedSeq ≠ 0 ∨ b.enqueuedSeq ≠ 0)
    : compare (waitingOffset a) (waitingOffset b) = compareWaitingOrder a b := by
  unfold sequenceLimit at below otherBelow
  unfold waitingOffset compareWaitingOrder
  by_cases released : a.enqueuedSeq = 0
  · have other : b.enqueuedSeq ≠ 0 := drawn.resolve_left (not_not_intro released)
    rw [if_pos released, if_neg other, beq_iff_eq.mpr released, beq_eq_false_iff_ne.mpr other]
    refine compare_lt_iff_lt.mpr ?_
    split <;> omega
  · rw [if_neg released, beq_eq_false_iff_ne.mpr released]
    by_cases otherReleased : b.enqueuedSeq = 0
    · rw [if_pos otherReleased, beq_iff_eq.mpr otherReleased]
      refine compare_gt_iff_gt.mpr ?_
      split <;> omega
    · rw [if_neg otherReleased, beq_eq_false_iff_ne.mpr otherReleased]
      cases a.options.lifo <;> cases b.options.lifo
      · exact compare_congr (by simp) (by simp)
      · exact compare_gt_iff_gt.mpr (by simp; omega)
      · exact compare_lt_iff_lt.mpr (by simp; omega)
      · exact compare_congr (by simp) (by simp)

-----------------------------------------------------------------------------------------
-- Claim order
-----------------------------------------------------------------------------------------

/-- Jobs that were not released drew distinct sequence numbers. -/
def DrawnApart (a b : Job) : Prop :=
  a.enqueuedSeq = b.enqueuedSeq → a.enqueuedSeq = 0 ∨ a.id = b.id

theorem waitingOffset_ne (below : a.enqueuedSeq < sequenceLimit)
    (otherBelow : b.enqueuedSeq < sequenceLimit) (apart : a.enqueuedSeq ≠ b.enqueuedSeq)
    : waitingOffset a ≠ waitingOffset b := by
  unfold sequenceLimit at below otherBelow
  unfold waitingOffset
  split_ifs <;> omega

@[simp] theorem compareWaitingOrder_self : compareWaitingOrder a a = .eq := by
  unfold compareWaitingOrder
  cases a.enqueuedSeq == 0 <;> cases a.options.lifo <;> simp

/-- Where the waiting order tells two jobs apart, the later criteria do not count. -/
theorem compareClaimOrder_of_ne (apart : compareWaitingOrder a b ≠ .eq)
    : compareClaimOrder a b = (compare a.priority b.priority).then (compareWaitingOrder a b) := by
  unfold compareClaimOrder
  cases compare a.priority b.priority <;> cases order : compareWaitingOrder a b <;>
    first | rfl | exact absurd order apart

theorem compareWaitingScore_eq (below : a.enqueuedSeq < sequenceLimit)
    (otherBelow : b.enqueuedSeq < sequenceLimit) (apart : DrawnApart a b)
    (identified : a.id = b.id → a = b)
    : compareWaitingScore a b = compareClaimOrder a b := by
  by_cases same : a.id = b.id
  · obtain rfl := identified same
    simp [compareWaitingScore, compareClaimOrder]
  unfold compareWaitingScore
  rw [waitingScore_eq below, waitingScore_eq otherBelow,
    compare_packed (waitingOffset_bounds below) (waitingOffset_bounds otherBelow)]
  have distinctIds : compare a.id b.id ≠ .eq := fun equal => same (Std.LawfulEqOrd.eq_of_compare equal)
  by_cases drawn : a.enqueuedSeq = b.enqueuedSeq
  · -- two released jobs: both orders come down to the ids
    have released : a.enqueuedSeq = 0 := (apart drawn).resolve_right same
    have order : compareWaitingOrder a b = compare a.id b.id := by
      simp [compareWaitingOrder, released, ← drawn]
    have offsets : compare (waitingOffset a) (waitingOffset b) = .eq := by
      simp [waitingOffset, released, ← drawn]
    rw [compareClaimOrder_of_ne (by rw [order]; exact distinctIds), order, offsets,
      Ordering.then_eq]
  · have offsets := waitingOffset_ne below otherBelow drawn
    have order : compare (waitingOffset a) (waitingOffset b) = compareWaitingOrder a b :=
      compare_waitingOffset below otherBelow (by omega)
    have told : compareWaitingOrder a b ≠ .eq := by
      rw [← order]
      exact fun equal => offsets (compare_eq_iff_eq.mp equal)
    rw [compareClaimOrder_of_ne told, order]
    cases compare a.priority b.priority <;> cases decided : compareWaitingOrder a b <;>
      first | rfl | exact absurd decided told

/-- The least elements of two orders that agree on the list are the same. -/
theorem minBy_congr {order other : Job → Job → Ordering} {jobs : List Job}
    (agree : ∀ left ∈ jobs, ∀ right ∈ jobs, order left right = other left right)
    : minBy order jobs = minBy other jobs := by
  cases jobs with
  | nil => rfl
  | cons job rest =>
      refine congrArg some ?_
      have fold (jobs : List Job) (best : Job)
          (agree : ∀ left ∈ best :: jobs, ∀ right ∈ best :: jobs, order left right = other left right)
          : jobs.foldl (fun best next => if order best next = .gt then next else best) best
            = jobs.foldl (fun best next => if other best next = .gt then next else best) best := by
        induction jobs generalizing best with
        | nil => rfl
        | cons next jobs ih =>
            simp only [List.foldl_cons]
            rw [agree best List.mem_cons_self next (List.mem_cons_of_mem _ List.mem_cons_self)]
            refine ih _ ?_
            have within {member : Job} (inTail : member ∈ (if other best next = .gt then next else best) :: jobs)
                : member ∈ best :: next :: jobs := by
              rcases List.mem_cons.mp inTail with rfl | later
              · split <;> simp
              · exact List.mem_cons_of_mem _ (List.mem_cons_of_mem _ later)
            exact fun left leftIn right rightIn => agree left (within leftIn) right (within rightIn)
      exact fold rest job agree

/-- Sorting waiting jobs by score and then by id is the claim order, and the first member of
the sorted set is the job that a claim takes.
-/
theorem waitingScore_sorts_by_claimOrder {jobs : List Job}
    (below : ∀ job ∈ jobs, job.enqueuedSeq < sequenceLimit)
    (apart : ∀ left ∈ jobs, ∀ right ∈ jobs, DrawnApart left right)
    (identified : ∀ left ∈ jobs, ∀ right ∈ jobs, left.id = right.id → left = right)
    : (∀ left ∈ jobs, ∀ right ∈ jobs, compareWaitingScore left right = compareClaimOrder left right)
      ∧ minBy compareWaitingScore jobs = minBy compareClaimOrder jobs := by
  have agree
      : ∀ left ∈ jobs, ∀ right ∈ jobs, compareWaitingScore left right = compareClaimOrder left right :=
    fun left leftIn right rightIn =>
      compareWaitingScore_eq (below left leftIn) (below right rightIn)
        (apart left leftIn right rightIn) (identified left leftIn right rightIn)
  exact ⟨agree, minBy_congr agree⟩

/-- A released job, a newest-first job and an older oldest-first job of one priority. -/
def mixedJobs : List Job :=
  [ Job.new "queue" "work" .null {} 0 "released",
    { Job.new "queue" "work" .null { lifo := true } 0 "newest" with enqueuedSeq := 2 },
    { Job.new "queue" "work" .null {} 0 "oldest" with enqueuedSeq := 1 } ]

theorem waitingScore_sorts_mixedJobs
    : (∀ left ∈ mixedJobs, ∀ right ∈ mixedJobs,
        compareWaitingScore left right = compareClaimOrder left right)
      ∧ minBy compareWaitingScore mixedJobs = minBy compareClaimOrder mixedJobs := by
  refine waitingScore_sorts_by_claimOrder (by decide) ?_ ?_
  · simp [mixedJobs, DrawnApart, Job.new]
  · simp [mixedJobs, Job.new]

end Lane
