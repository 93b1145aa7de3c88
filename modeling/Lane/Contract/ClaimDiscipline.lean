import Lane.Library.Comparison
import Lane.Life.Lineup

/-! The claim discipline: a claim takes the head of a line that is kept as the history of the
entries into waiting.
-/

namespace Lane

-----------------------------------------------------------------------------------------
-- The claim order as an order of keys
-----------------------------------------------------------------------------------------

/-- The key by which the waiting order compares. -/
def waitingKey (job : Job) : Nat ×ₗ Int ×ₗ String :=
  if job.enqueuedSeq = 0 then
    toLex (0, toLex (0, job.id))
  else if job.options.lifo then
    toLex (1, toLex (-job.enqueuedSeq, ""))
  else
    toLex (2, toLex (job.enqueuedSeq, ""))

/-- The key by which the claim order compares. -/
def claimKey (job : Job) : Nat ×ₗ (Nat ×ₗ Int ×ₗ String) ×ₗ Int ×ₗ Int ×ₗ String :=
  toLex
    (job.priority,
      toLex (waitingKey job, toLex (job.scheduledAt, toLex (job.createdAt, job.id))))

/-- The waiting order compares keys, by cases on release and LIFO of the two jobs. -/
theorem compareWaitingOrder_eq (a b : Job)
    : compareWaitingOrder a b = compare (waitingKey a) (waitingKey b) := by
  unfold compareWaitingOrder waitingKey
  by_cases released : a.enqueuedSeq = 0 <;> by_cases otherReleased : b.enqueuedSeq = 0 <;>
    cases lifo : a.options.lifo <;> cases otherLifo : b.options.lifo <;>
      simp [released, otherReleased, Prod.Lex.compare_def, compareLex, compareOn,
        beq_eq_false_iff_ne.mpr]
  all_goals first | rfl | exact compare_congr (by simp) (by simp)

theorem compareClaimOrder_eq (a b : Job)
    : compareClaimOrder a b = compare (claimKey a) (claimKey b) := by
  unfold compareClaimOrder claimKey
  rw [compareWaitingOrder_eq]
  simp only [Prod.Lex.compare_def, compareLex, compareOn, ofLex_toLex, Ordering.then_assoc]

/-- The minimum by an order of keys has the least key, by the invariant of its fold. -/
theorem minBy_least {κ : Type} [LinearOrder κ] {order : Job → Job → Ordering} (key : Job → κ)
    (keyed : ∀ a b, order a b = compare (key a) (key b)) {jobs : List Job} {job : Job}
    (least : minBy order jobs = some job)
    : ∀ other ∈ jobs, key job ≤ key other := by
  have fold (rest : List Job) (best : Job)
      : ∀ other ∈ best :: rest,
          key (rest.foldl (fun best next => if order best next = .gt then next else best) best)
            ≤ key other := by
    induction rest generalizing best with
    | nil =>
        intro other member
        rw [List.mem_singleton.mp member]
        exact le_refl _
    | cons next rest ih =>
        rw [List.foldl_cons]
        have chosen
            : key (if order best next = .gt then next else best) ≤ key best
              ∧ key (if order best next = .gt then next else best) ≤ key next := by
          split
          · next greater =>
              rw [keyed, compare_gt_iff_gt] at greater
              exact ⟨le_of_lt greater, le_refl _⟩
          · next notGreater =>
              rw [keyed, compare_gt_iff_gt] at notGreater
              exact ⟨le_refl _, not_lt.mp notGreater⟩
        generalize (if order best next = .gt then next else best) = better at chosen ⊢
        have first := ih better better List.mem_cons_self
        intro other member
        rcases List.mem_cons.mp member with rfl | member
        · exact le_trans first chosen.1
        · rcases List.mem_cons.mp member with rfl | later
          · exact le_trans first chosen.2
          · exact ih better other (List.mem_cons_of_mem _ later)
  cases jobs with
  | nil => cases least
  | cons first rest =>
      simp only [minBy, Option.some.injEq] at least
      rw [← least]
      exact fold rest first

/-- What it means for a job not to come after another one. -/
theorem claimOrder_cases {a b : Job} (order : claimKey a ≤ claimKey b)
    : a.priority ≤ b.priority
      ∧ (a.priority = b.priority → waitingKey a ≤ waitingKey b) := by
  unfold claimKey at order
  rw [Prod.Lex.le_iff] at order
  simp only [ofLex_toLex] at order
  rcases order with lower | ⟨same, rest⟩
  · exact ⟨le_of_lt lower, fun same => absurd same (ne_of_lt lower)⟩
  · refine ⟨le_of_eq same, fun _ => ?_⟩
    rw [Prod.Lex.le_iff] at rest
    simp only [ofLex_toLex] at rest
    rcases rest with lower | ⟨same, _⟩
    · exact le_of_lt lower
    · exact le_of_eq same

/-- A job that is not after a returned one was returned under a smaller id. A job that entered
is not after another one that entered only as a newer LIFO job, or as an older job that does not
go ahead of LIFO jobs.
-/
theorem waitingKey_cases {a b : Job} (order : waitingKey a ≤ waitingKey b)
    : (b.enqueuedSeq = 0 → a.enqueuedSeq = 0 ∧ a.id ≤ b.id)
      ∧ (a.enqueuedSeq ≠ 0
        → (b.options.lifo = true → a.options.lifo = true ∧ b.enqueuedSeq ≤ a.enqueuedSeq)
          ∧ (b.options.lifo = false
            → a.options.lifo = false
            → a.enqueuedSeq ≤ b.enqueuedSeq)) := by
  have entered (drawn : b.enqueuedSeq ≠ 0) (own : a.enqueuedSeq ≠ 0)
      : (b.options.lifo = true → a.options.lifo = true ∧ b.enqueuedSeq ≤ a.enqueuedSeq)
        ∧ (b.options.lifo = false
          → a.options.lifo = false
          → a.enqueuedSeq ≤ b.enqueuedSeq) := by
    cases lifo : a.options.lifo <;> cases otherLifo : b.options.lifo <;>
      simp [waitingKey, drawn, own, lifo, otherLifo, Prod.Lex.le_iff] at order ⊢
    · omega
    · omega
  have returned (zero : b.enqueuedSeq = 0) : a.enqueuedSeq = 0 ∧ a.id ≤ b.id := by
    by_cases own : a.enqueuedSeq = 0
    · refine ⟨own, ?_⟩
      simp only [waitingKey, zero, own, if_true, Prod.Lex.le_iff, ofLex_toLex] at order
      simpa using order
    · cases lifo : a.options.lifo <;>
        simp [waitingKey, zero, own, lifo, Prod.Lex.le_iff] at order
  refine ⟨returned, fun own => ?_⟩
  by_cases zero : b.enqueuedSeq = 0
  · exact absurd (returned zero).1 own
  · exact entered zero own

-----------------------------------------------------------------------------------------
-- The line
-----------------------------------------------------------------------------------------

namespace InMemoryJobQueueState

/-- The job waits with this priority. -/
def waitsAt (s : InMemoryJobQueueState) (priority : JobPriority) (id : JobId) : Bool :=
  (s.jobs.get id).any (fun job => job.state == .waiting && job.priority == priority)

/-- The job is served newest first. -/
def isLifo (s : InMemoryJobQueueState) (id : JobId) : Bool :=
  (s.jobs.get id).any (fun job => job.options.lifo)

/-- The waiting jobs of one priority in the order of the reference: those that a worker
returned, by id, then LIFO jobs from the last entry to the first, then the other jobs from the
first entry to the last.
-/
def lineup (s : InMemoryJobQueueState) (ledger : Ledger JobId) (priority : JobPriority)
    : List JobId :=
  ledger.returned.filter (s.waitsAt priority)
    ++ (ledger.entered.filter (fun id => s.waitsAt priority id && s.isLifo id)).reverse
    ++ ledger.entered.filter (fun id => s.waitsAt priority id && !s.isLifo id)

/-- The job is the head of the line: the first of the least priority that has a line. -/
def Heads (s : InMemoryJobQueueState) (ledger : Ledger JobId) (id : JobId) : Prop :=
  ∃ priority,
    (s.lineup ledger priority).head? = some id
    ∧ ∀ lower, lower < priority → s.lineup ledger lower = []

variable {s : InMemoryJobQueueState} {ledger : Ledger JobId} {job : Job} {id : JobId}
  {priority : JobPriority}

theorem waitsAt_iff
    : s.waitsAt priority id = true
      ↔ ∃ job, s.jobs.get id = some job ∧ job.state = .waiting ∧ job.priority = priority := by
  simp [waitsAt, Option.any_eq_true]

theorem date_of_waiting (found : s.jobs.get id = some job) (waiting : job.state = .waiting)
    : s.lives.date id = some job.enqueuedSeq := by
  have shown : job.life.state = .waiting := waiting
  simp [Lives.date, lives_of_get found, Life.date, shown]
  rfl

theorem mem_lineup (member : id ∈ s.lineup ledger priority) : s.waitsAt priority id = true := by
  unfold lineup at member
  simp only [List.mem_append, List.mem_filter, List.mem_reverse, Bool.and_eq_true] at member
  rcases member with (⟨_, waits⟩ | ⟨_, waits, _⟩) | ⟨_, waits, _⟩ <;> exact waits

/-- The first job in claim order is the head of a dated line. -/
theorem heads_firstWaiting (dates : ledger.Dates s.lives.date s.lives.sequence)
    (first : s.firstWaiting = some job)
    : s.Heads ledger job.id := by
  obtain ⟨found, waiting⟩ := firstWaiting_some first
  have least {other : Job} {id : JobId} (shown : s.jobs.get id = some other)
      (waits : other.state = .waiting)
      : claimKey job ≤ claimKey other := by
    refine minBy_least claimKey compareClaimOrder_eq first other (List.mem_filter.mpr ⟨?_, ?_⟩)
    · exact JobMap.mem_values_of_get shown
    · simp [waits]
  have known := date_of_waiting found waiting
  have waits : s.waitsAt job.priority job.id = true := waitsAt_iff.mpr ⟨job, found, waiting, rfl⟩
  have below {id : JobId} (member : s.waitsAt job.priority id = true)
      : ∃ other,
          s.lives.date id = some other.enqueuedSeq
          ∧ other.id = id
          ∧ s.isLifo id = other.options.lifo
          ∧ waitingKey job ≤ waitingKey other := by
    obtain ⟨other, shown, otherWaits, same⟩ := waitsAt_iff.mp member
    exact ⟨other, date_of_waiting shown otherWaits, JobMap.get_id shown, by simp [isLifo, shown],
      (claimOrder_cases (least shown otherWaits)).2 same.symm⟩
  have isLifo : s.isLifo job.id = job.options.lifo := by simp [InMemoryJobQueueState.isLifo, found]
  refine ⟨job.priority, ?_, ?_⟩
  · unfold lineup
    by_cases released : job.enqueuedSeq = 0
    · rw [released] at known
      have head := dates.head_returned known waits (by
        intro id member isReturned
        obtain ⟨other, date, rfl, _, order⟩ := below member
        exact ((waitingKey_cases order).1 (dates.given isReturned date)).2)
      simp [List.head?_append, head]
    · have nobodyReturned : ledger.returned.filter (s.waitsAt job.priority) = [] := by
        refine List.filter_eq_nil_iff.mpr ?_
        intro id isReturned member
        obtain ⟨other, date, rfl, _, order⟩ := below member
        exact released ((waitingKey_cases order).1 (dates.given isReturned date)).1
      rw [nobodyReturned, List.nil_append]
      cases lifo : job.options.lifo with
      | true =>
          have head
              : (ledger.entered.filter
                  (fun id => s.waitsAt job.priority id && s.isLifo id)).reverse.head? = some job.id := by
            refine dates.head_newest known released (by simp [waits, isLifo, lifo]) ?_
            intro id member _
            obtain ⟨inLine, newestFirst⟩ := Bool.and_eq_true_iff.mp member
            obtain ⟨other, date, rfl, otherLifo, order⟩ := below inLine
            rw [otherLifo] at newestFirst
            exact ⟨_, date, (((waitingKey_cases order).2 released).1 newestFirst).2⟩
          simp [List.head?_append, head]
      | false =>
          have nobodyLifo
              : ledger.entered.filter (fun id => s.waitsAt job.priority id && s.isLifo id) = [] := by
            refine List.filter_eq_nil_iff.mpr ?_
            intro id _ member
            obtain ⟨inLine, newestFirst⟩ := Bool.and_eq_true_iff.mp member
            obtain ⟨other, date, rfl, otherLifo, order⟩ := below inLine
            rw [otherLifo] at newestFirst
            rw [(((waitingKey_cases order).2 released).1 newestFirst).1] at lifo
            cases lifo
          rw [nobodyLifo, List.reverse_nil, List.nil_append]
          refine dates.head_oldest known released (by simp [waits, isLifo, lifo]) ?_
          intro id member _
          obtain ⟨inLine, oldestFirst⟩ := Bool.and_eq_true_iff.mp member
          obtain ⟨other, date, rfl, otherLifo, order⟩ := below inLine
          rw [otherLifo, Bool.not_eq_true'] at oldestFirst
          exact ⟨_, date, ((waitingKey_cases order).2 released).2 oldestFirst lifo⟩
  · intro lower below
    refine List.eq_nil_iff_forall_not_mem.mpr ?_
    intro id member
    obtain ⟨other, shown, waits, rfl⟩ := waitsAt_iff.mp (mem_lineup member)
    exact absurd (claimOrder_cases (least shown waits)).1 (not_le.mpr below)

end InMemoryJobQueueState

-----------------------------------------------------------------------------------------
-- Runs with their line
-----------------------------------------------------------------------------------------

/-- The queue with the history of its line: every operation is a sequence of turns, and the
ledger records their entries in the order of the turns. A job that starts to wait enters, and so
do a waiting job whose priority is updated and a waiting parent whose failure is deferred.
-/
def lineupSystem (cron : Cron) (queue : QueueName)
    : LabelledSystem (InMemoryJobQueueState × Ledger JobId) Call where
  Step before call after :=
    (queueSystem cron queue).Step before.1 call after.1
      ∧ ∃ marks,
          Turns (before.1.occasion call.find call.op) before.1.lives marks after.1.lives
          ∧ after.2 = recordAll before.2 marks

/-- The line once the due jobs have entered, in their order. -/
def InMemoryJobQueueState.ledgerAt (s : InMemoryJobQueueState) (ledger : Ledger JobId)
    (now : DateTime)
    : Ledger JobId :=
  recordAll ledger ((s.dueJobs now).map (fun job => .enters job.id))

section Runs

open InMemoryJobQueueState

variable {cron : Cron} {queue : QueueName} {s : InMemoryJobQueueState} {ledger : Ledger JobId}
  {now : DateTime} {job : Job}

/-- Every reachable state is reached with its line, by induction on the run. -/
theorem lineup_reaches (reachable : Reachable cron queue s)
    : ∃ ledger, (lineupSystem cron queue).Reaches ({}, {}) (s, ledger) := by
  unfold Reachable at reachable
  generalize ({} : InMemoryJobQueueState) = first at reachable ⊢
  induction reachable with
  | refl => exact ⟨{}, .refl _⟩
  | @tail t u call _ _ step ih =>
      obtain ⟨ledger, run⟩ := ih
      obtain ⟨marks, turns⟩ := turned_step cron call.find queue t call.op
      exact ⟨recordAll ledger marks, .tail run trivial ⟨step, marks, step.2 ▸ turns, rfl⟩⟩

/-- While the counter is not saturated, the sequence numbers date the line. -/
theorem lineup_run (run : (lineupSystem cron queue).Reaches ({}, {}) (s, ledger))
    : s.sequence ≤ u64Max
      ∧ (s.sequence < u64Max → ledger.Dates s.lives.date s.lives.sequence) := by
  refine run.invariant
    (fun state =>
      state.1.sequence ≤ u64Max
        ∧ (state.1.sequence < u64Max
          → state.2.Dates state.1.lives.date state.1.lives.sequence)) ?_ ?_
  · exact ⟨Nat.zero_le _, fun _ => Ledger.dates_empty (fun _ => rfl)⟩
  · rintro ⟨s, ledger⟩ call ⟨t, later⟩ ⟨bounded, dates⟩ _ ⟨_, marks, turns, recorded⟩
    obtain ⟨order, still⟩ := turns.sequence_le bounded
    simp only at recorded
    refine ⟨still, fun unsaturated => ?_⟩
    rw [recorded]
    exact turns.dates bounded (dates (lt_of_le_of_lt order unsaturated)) unsaturated

/-- The promotion of the due jobs keeps the line dated. -/
theorem dates_promoteDueLocked (run : (lineupSystem cron queue).Reaches ({}, {}) (s, ledger))
    (unsaturated : (s.promoteDueLocked now).1.sequence < u64Max)
    : (s.ledgerAt ledger now).Dates (s.promoteDueLocked now).1.lives.date
        (s.promoteDueLocked now).1.lives.sequence := by
  obtain ⟨bounded, dates⟩ := lineup_run run
  have turns
      : Turns ⟨(· = now), fun _ => False, fun _ => False, fun _ => False⟩ s.lives
          ((s.dueJobs now).map (fun job => .enters job.id)) (s.promoteDueLocked now).1.lives :=
    turns_promoteDueLocked s rfl
  have order := (turns.sequence_le bounded).1
  exact turns.dates bounded (dates (lt_of_le_of_lt order unsaturated)) unsaturated

/-- The due jobs enter in the order of their schedules, creation times and ids. -/
theorem dueJobs_ordered (s : InMemoryJobQueueState) (now : DateTime)
    : (s.dueJobs now).Pairwise dueOrder := by
  have key (left right : Job)
      : dueOrder left right
        ↔ toLex (left.scheduledAt, toLex (left.createdAt, left.id))
          ≤ toLex (right.scheduledAt, toLex (right.createdAt, right.id)) := by
    simp only [dueOrder, Prod.Lex.le_iff, ofLex_toLex]
  have total : Std.Total dueOrder := ⟨fun left right => by
    rw [key, key]
    exact le_total _ _⟩
  have transitive : IsTrans Job dueOrder := ⟨fun left middle right => by
    rw [key, key, key]
    exact le_trans⟩
  exact List.pairwise_insertionSort dueOrder _

/-- A job that waits, or whose turn to be promoted comes, waits after the promotions, by
induction on them.
-/
theorem waits_promoteDueJobs {dueJobs : List Job} {id : JobId} (promoted : Nat)
    (ready
      : ∃ job,
          s.jobs.get id = some job ∧ (job.state = .waiting ∨ id ∈ dueJobs.map Job.id))
    : ∃ job,
        (dueJobs.foldl (promoteDueJob now) (s, promoted)).1.jobs.get id = some job
        ∧ job.state = .waiting := by
  induction dueJobs generalizing s promoted with
  | nil =>
      obtain ⟨job, found, waiting | ⟨⟨⟩⟩⟩ := ready
      exact ⟨job, found, waiting⟩
  | cons due rest ih =>
      rw [List.foldl_cons]
      obtain ⟨job, found, reason⟩ := ready
      have next
          : ∃ job,
              (promoteDueJob now (s, promoted) due).1.jobs.get id = some job
              ∧ (job.state = .waiting ∨ id ∈ rest.map Job.id) := by
        unfold promoteDueJob nextWaitingSequence
        cases shown : s.jobs.get due.id with
        | none =>
            simp only [shown]
            refine ⟨job, found, reason.imp_right (fun member => ?_)⟩
            rcases List.mem_cons.mp member with rfl | later
            · rw [found] at shown
              cases shown
            · exact later
        | some current =>
            have same := JobMap.get_id shown
            simp only [shown]
            rw [jobs_of_tables (emitEventLocked_tables _ _ _ _ _ _)]
            simp only [setJob, JobMap.get_insert]
            split
            · exact ⟨_, rfl, .inl rfl⟩
            · next other =>
                refine ⟨job, found, reason.imp_right (fun member => ?_)⟩
                rcases List.mem_cons.mp member with isDue | later
                · exact absurd (isDue.trans same.symm) other
                · exact later
      generalize promoteDueJob now (s, promoted) due = promoting at next ⊢
      exact ih promoting.2 next

/-- A job that waits or is due is there to be claimed once the due jobs have entered. -/
theorem firstWaiting_promoteDueLocked {id : JobId} (found : s.jobs.get id = some job)
    (ready : job.state = .waiting ∨ job.state = .delayed ∧ job.scheduledAt ≤ now)
    : ∃ first, (s.promoteDueLocked now).1.firstWaiting = some first := by
  obtain rfl := JobMap.get_id found
  have listed : job.state = .waiting ∨ job.id ∈ (s.dueJobs now).map Job.id :=
    ready.imp_right (fun due => List.mem_map_of_mem (mem_dueJobs.mpr ⟨found, due⟩))
  obtain ⟨promoted, shown, waiting⟩
      : ∃ promoted,
          (s.promoteDueLocked now).1.jobs.get job.id = some promoted
          ∧ promoted.state = .waiting :=
    waits_promoteDueJobs 0 ⟨job, found, listed⟩
  refine Option.ne_none_iff_exists'.mp (fun nobody => ?_)
  exact firstWaiting_none.mp nobody _ promoted shown waiting

end Runs

-----------------------------------------------------------------------------------------
-- A mixed line
-----------------------------------------------------------------------------------------

/-- Two jobs in order, a LIFO job, a delayed one and a job that a worker returns. -/
def mixedLine : List Call :=
  [ { op := .addAt "work" .null {} 0 "returned" },
    { op := .claimNext "worker" 10 0 "lease" },
    { op := .addAt "work" .null {} 1 "first" },
    { op := .addAt "work" .null { lifo := true } 2 "newest" },
    { op := .addAt "work" .null { delay := some 3 } 2 "due" },
    { op := .releaseActive "returned" "lease" 3 } ]

end Lane
