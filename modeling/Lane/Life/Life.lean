import Lane.Job.Step

/-! The lifecycle of jobs without the contents of their records: the lease, the end and the
place in the waiting order of each retained job, and the turns that a lifecycle can take.
-/

namespace Lane

-----------------------------------------------------------------------------------------
-- Lives
-----------------------------------------------------------------------------------------

/-- What the lifecycle says about one job. -/
structure Life where
  state : JobState
  workerId : Option JobWorkerId
  lockToken : Option JobLockToken
  leaseExpiresAt : Option DateTime
  finishedAt : Option DateTime
  returnValue : Option Value
  createdAt : DateTime
  scheduledAt : DateTime
  priority : JobPriority
  lifo : Bool
  enqueuedSeq : Nat

/-- The life of a record. -/
def Job.life (job : Job) : Life :=
  { state := job.state
    workerId := job.workerId
    lockToken := job.lockToken
    leaseExpiresAt := job.leaseExpiresAt
    finishedAt := job.finishedAt
    returnValue := job.returnValue
    createdAt := job.createdAt
    scheduledAt := job.scheduledAt
    priority := job.priority
    lifo := job.options.lifo
    enqueuedSeq := job.enqueuedSeq }

/-- The lives of the retained jobs and the last waiting sequence number. -/
@[ext] structure Lives where
  life : JobId → Option Life
  sequence : Nat

/-- The lives that a queue state shows. -/
def InMemoryJobQueueState.lives (s : InMemoryJobQueueState) : Lives :=
  { life := fun id => (s.jobs.get id).map Job.life
    sequence := s.sequence }

namespace Life

/-- No worker holds the job. -/
def Unleased (l : Life) : Prop :=
  l.workerId = none ∧ l.lockToken = none ∧ l.leaseExpiresAt = none

/-- What a turn leaves of an earlier lease and an earlier end: nothing, or what an idle and
unfinished job has of them.
-/
structure Cleared (l after : Life) : Prop where
  lease
    : after.Unleased
      ∨ l.state ≠ .active
        ∧ after.workerId = l.workerId
        ∧ after.lockToken = l.lockToken
        ∧ after.leaseExpiresAt = l.leaseExpiresAt
  finishedAt
    : after.finishedAt = none ∨ l.state.isTerminal = false ∧ after.finishedAt = l.finishedAt
  returnValue
    : after.returnValue = none ∨ l.state.isTerminal = false ∧ after.returnValue = l.returnValue
  order : after.createdAt = l.createdAt ∧ after.priority = l.priority ∧ after.lifo = l.lifo

/-- A life that starts over. -/
structure Fresh (l : Life) : Prop where
  unleased : l.Unleased
  unfinished : l.finishedAt = none
  valueless : l.returnValue = none

end Life

namespace Lives

/-- Writes one life. -/
def set (a : Lives) (id : JobId) (l : Option Life) : Lives :=
  { a with life := Function.update a.life id l }

/-- Draws the next waiting sequence number. -/
def draw (a : Lives) : Lives := { a with sequence := saturatingSucc64 a.sequence }

end Lives

-----------------------------------------------------------------------------------------
-- Turns
-----------------------------------------------------------------------------------------

/-- What an operation brings to the turns of its jobs: the times that it reads, the tokens
that it hands out, the jobs that it retries and the jobs that it completes.
-/
structure Occasion where
  reads : DateTime → Prop
  claims : JobLockToken → Prop
  retries : JobId → Prop
  completes : JobId → Prop

/-- The job is due at a time that the operation reads. -/
def Occasion.Due (o : Occasion) (scheduledAt : DateTime) : Prop :=
  ∃ now, o.reads now ∧ scheduledAt ≤ now

/-- What a turn does to the waiting order: a job takes the next place, or a worker returns a
job ahead of all places.
-/
inductive Mark where
  | enters (id : JobId)
  | returns (id : JobId)
deriving DecidableEq, Repr

/-- One turn of one life, with what it does to the waiting order. -/
inductive Turn (o : Occasion) (a : Lives) : List Mark → Lives → Prop
  | claimed {id : JobId} {l : Life} {workerId : JobWorkerId} {token : JobLockToken}
    {leaseExpiresAt : DateTime} (found : a.life id = some l) (waiting : l.state = .waiting)
    (claims : o.claims token)
    : Turn o a []
        (a.set id
          (some
            { l with
              state := .active, workerId := some workerId, lockToken := some token,
              leaseExpiresAt := some leaseExpiresAt }))
  | renewed {id : JobId} {l : Life} {leaseExpiresAt : DateTime} (found : a.life id = some l)
    (active : l.state = .active)
    : Turn o a [] (a.set id (some { l with leaseExpiresAt := some leaseExpiresAt }))
  | completed {id : JobId} {l after : Life} {now : DateTime} {value : Value}
    (found : a.life id = some l) (active : l.state = .active) (unleased : after.Unleased)
    (ended
      : after.state = .completed ∧ after.finishedAt = some now ∧ after.returnValue = some value)
    (completes : o.completes id)
    : Turn o a [] (a.set id (some after))
  | failed {id : JobId} {l after : Life} {now : DateTime} (found : a.life id = some l)
    (alive : l.state.isTerminal = false) (unleased : after.Unleased)
    (ended
      : after.state = .failed
        ∧ after.finishedAt = some now
        ∧ after.returnValue = l.returnValue)
    : Turn o a [] (a.set id (some after))
  | queued {id : JobId} {l after : Life} (found : a.life id = some l)
    (alive : l.state.isTerminal = false ∨ o.retries id) (cleared : l.Cleared after)
    (waiting : after.state = .waiting)
    (due : o.Due after.scheduledAt ∨ l.state = .active ∧ after.scheduledAt = l.scheduledAt)
    (drawn : after.enqueuedSeq = saturatingSucc64 a.sequence)
    : Turn o a [.enters id] (a.draw.set id (some after))
  | released {id : JobId} {l after : Life} (found : a.life id = some l)
    (active : l.state = .active) (cleared : l.Cleared after) (waiting : after.state = .waiting)
    (due : o.Due after.scheduledAt) (first : after.enqueuedSeq = 0)
    : Turn o a [.returns id] (a.set id (some after))
  | shelved {id : JobId} {l after : Life} (found : a.life id = some l)
    (alive : l.state.isTerminal = false) (cleared : l.Cleared after)
    (shelved : after.state = .delayed ∨ after.state = .waitingChildren)
    : Turn o a [] (a.set id (some after))
  | reprioritized {id : JobId} {l : Life} {priority : JobPriority} {lifo : Bool}
    (found : a.life id = some l) (waiting : l.state = .waiting)
    : Turn o a [.enters id]
        (a.draw.set id
          (some { l with priority, lifo, enqueuedSeq := saturatingSucc64 a.sequence }))
  | reordered {id : JobId} {l : Life} {priority : JobPriority} {lifo : Bool}
    (found : a.life id = some l) (idle : l.state ≠ .waiting)
    : Turn o a [] (a.set id (some { l with priority, lifo }))
  | entered {id : JobId} {after : Life} (absent : a.life id = none) (fresh : after.Fresh)
    (waiting : after.state = .waiting) (due : o.Due after.scheduledAt)
    (drawn : after.enqueuedSeq = saturatingSucc64 a.sequence)
    : Turn o a [.enters id] (a.draw.set id (some after))
  | planned {id : JobId} {after : Life} (absent : a.life id = none) (fresh : after.Fresh)
    (planned : after.state = .delayed ∨ after.state = .waitingChildren)
    : Turn o a [] (a.set id (some after))
  | dropped (id : JobId) : Turn o a [] (a.set id none)
  | obliterated : Turn o a [] { a with life := fun _ => none }

/-- A sequence of turns with what they do to the waiting order. -/
inductive Turns (o : Occasion) : Lives → List Mark → Lives → Prop
  | nil (a : Lives) : Turns o a [] a
  | cons {a b c : Lives} {marks later : List Mark} (first : Turn o a marks b)
    (rest : Turns o b later c)
    : Turns o a (marks ++ later) c

/-- Some sequence of turns leads from one state's lives to the other's. -/
def InMemoryJobQueueState.Turned (o : Occasion) (s t : InMemoryJobQueueState) : Prop :=
  ∃ marks, Turns o s.lives marks t.lives

theorem Turns.single {o : Occasion} {a b : Lives} {marks : List Mark} (turn : Turn o a marks b)
    : Turns o a marks b := by
  have turns := Turns.cons turn (.nil b)
  rwa [List.append_nil] at turns

/-- Sequences of turns compose, by induction on the first one. -/
theorem Turns.trans {o : Occasion} {a b c : Lives} {first second : List Mark}
    (turns : Turns o a first b) (more : Turns o b second c)
    : Turns o a (first ++ second) c := by
  induction turns with
  | nil => exact more
  | cons turn _ ih =>
      rw [List.append_assoc]
      exact .cons turn (ih more)

-----------------------------------------------------------------------------------------
-- New records
-----------------------------------------------------------------------------------------

/-- A new record: it starts over, and it waits only when it is due. -/
structure Job.Starts (o : Occasion) (job : Job) : Prop where
  fresh : job.life.Fresh
  schedule
    : job.state = .waiting ∧ o.Due job.scheduledAt
      ∨ job.state = .delayed
      ∨ job.state = .waitingChildren

/-- A time that the operation reads decides whether the job waits. -/
theorem due_stateAfterDependencies {o : Occasion} (scheduledAt : DateTime) {now : DateTime}
    (reads : o.reads now)
    : stateAfterDependencies scheduledAt now = .waiting ∧ o.Due scheduledAt
      ∨ stateAfterDependencies scheduledAt now = .delayed := by
  unfold stateAfterDependencies
  split
  · exact .inr rfl
  · next due => exact .inl ⟨rfl, now, reads, not_lt.mp due⟩

theorem starts_new {o : Occasion} {queue : QueueName} {name : String} {payload : Value}
    {options : JobOptions} {now : DateTime} {uuid : JobId} (reads : o.reads now)
    : (Job.new queue name payload options now uuid).Starts o where
  fresh := ⟨⟨rfl, rfl, rfl⟩, rfl, rfl⟩
  schedule := (due_stateAfterDependencies _ reads).imp_right Or.inl

/-- Links, keys and expiry do not count for a start. -/
theorem Job.Starts.of_same {o : Occasion} {job other : Job} (starts : job.Starts o)
    (same : other.life = job.life)
    : other.Starts o where
  fresh := same ▸ starts.fresh
  schedule := by
    have state : other.state = job.state := congrArg Life.state same
    have scheduledAt : other.scheduledAt = job.scheduledAt := congrArg Life.scheduledAt same
    rw [state, scheduledAt]
    exact starts.schedule

theorem starts_prepareDeduplicatedNextJob {o : Occasion} {job : Job} {now : DateTime}
    (reads : o.reads now)
    : (prepareDeduplicatedNextJob job now).Starts o where
  fresh := ⟨⟨rfl, rfl, rfl⟩, rfl, rfl⟩
  schedule := (due_stateAfterDependencies _ reads).imp_right Or.inl

theorem starts_nextKeepLastJob {o : Occasion} {owner candidate : Job} {count : Option Nat}
    {now : DateTime} (reads : o.reads now)
    : (nextKeepLastJob owner candidate count now).Starts o := by
  unfold nextKeepLastJob
  cases count with
  | none => exact starts_prepareDeduplicatedNextJob reads
  | some repeatCount => exact (starts_prepareDeduplicatedNextJob reads).of_same rfl

/-- The jobs of a kept flow start over. -/
theorem starts_prepareDeduplicatedNextFlow {o : Occasion} (flow : JobFlow) {now : DateTime}
    (reads : o.reads now)
    : (prepareDeduplicatedNextFlow flow now).parent.Starts o
      ∧ ∀ child ∈ (prepareDeduplicatedNextFlow flow now).children, child.Starts o := by
  constructor
  · have starts : (prepareDeduplicatedNextJob flow.parent now).Starts o :=
      starts_prepareDeduplicatedNextJob reads
    unfold prepareDeduplicatedNextFlow
    simp only
    split
    · exact starts.of_same rfl
    · exact ⟨⟨starts.fresh.1, starts.fresh.2, starts.fresh.3⟩, .inr (.inr rfl)⟩
  · intro child member
    obtain ⟨kept, _, rfl⟩ := List.mem_map.mp member
    exact (starts_prepareDeduplicatedNextJob reads).of_same rfl

/-- A new record, with a sequence number if it waits. -/
def Lives.accept (a : Lives) (job : Job) : Lives :=
  if job.state = .waiting then
    a.draw.set job.id (some { job.life with enqueuedSeq := saturatingSucc64 a.sequence })
  else
    a.set job.id (some job.life)

/-- Admitting a new record is one turn. -/
theorem turns_admit {o : Occasion} {a : Lives} {job : Job} (absent : a.life job.id = none)
    (starts : job.Starts o)
    : ∃ marks, Turns o a marks (a.accept job) := by
  unfold Lives.accept
  split
  · next waiting =>
      have due : o.Due job.scheduledAt := by
        rcases starts.schedule with ⟨_, due⟩ | delayed | parked
        · exact due
        · rw [waiting] at delayed
          cases delayed
        · rw [waiting] at parked
          cases parked
      exact ⟨_, .single (.entered absent ⟨starts.fresh.1, starts.fresh.2, starts.fresh.3⟩
        waiting due rfl)⟩
  · next idle =>
      exact ⟨_, .single (.planned absent starts.fresh
        (starts.schedule.resolve_left (fun waiting => idle waiting.1)))⟩

/-- A new record that takes its id over. -/
theorem turns_admit_over {o : Occasion} {a : Lives} {job : Job} (starts : job.Starts o)
    : ∃ marks, Turns o a marks (a.accept job) := by
  obtain ⟨marks, turns⟩ :=
    turns_admit (a := a.set job.id none) (Function.update_self _ _ _) starts
  have same : (a.set job.id none).accept job = a.accept job := by
    unfold Lives.accept
    split <;> simp [Lives.set, Lives.draw]
  rw [same] at turns
  exact ⟨_, .cons (.dropped job.id) turns⟩

end Lane
