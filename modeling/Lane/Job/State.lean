import Lane.Job.JobMap
import Mathlib.Data.Finset.Card

/-! The state behind the in-memory queue's lock, its event stream and sequence counters. -/

namespace Lane

/-- Parent-scoped results of children that may already have been removed. -/
structure InMemoryFlowDependencyIndex where
  processed : HashMap JobId Value := ∅
  ignored : HashMap JobId String := ∅
  failed : Finset JobId := ∅

def InMemoryFlowDependencyIndex.isEmpty (index : InMemoryFlowDependencyIndex) : Bool :=
  index.processed.keys.isEmpty && index.ignored.keys.isEmpty && decide (index.failed = ∅)

structure InMemoryJobQueueState where
  paused : Bool := false
  sequence : Nat := 0
  eventSequence : Nat := 0
  events : List JobEvent := []
  jobs : JobMap := .empty
  flowDependencies : HashMap JobId InMemoryFlowDependencyIndex := ∅
  deduplicationNext : HashMap String Job := ∅
  deduplicationNextFlows : HashMap String JobFlow := ∅
  releasedDeduplicationOwners : Finset (String × JobId) := ∅

namespace InMemoryJobQueueState

/-- Writes a record: an insertion of a new id, or the end of a `get_mut` on a stored one. -/
def setJob (s : InMemoryJobQueueState) (job : Job) : InMemoryJobQueueState :=
  { s with jobs := s.jobs.insert job }

-----------------------------------------------------------------------------------------
-- Events
-----------------------------------------------------------------------------------------

/-- Drops the oldest events beyond `maxLen` and returns how many went. -/
def trimEventsLocked (s : InMemoryJobQueueState) (maxLen : Nat)
    : InMemoryJobQueueState × Nat :=
  if s.events.length ≤ maxLen then
    (s, 0)
  else
    let removeCount := s.events.length - maxLen
    ({ s with events := s.events.drop removeCount }, removeCount)

def emitEventLocked (s : InMemoryJobQueueState) (event : String) (job : Option Job)
    (prev : Option JobState) (timestamp : DateTime) (fields : List (String × Value))
    : InMemoryJobQueueState :=
  let eventSequence := saturatingSucc64 s.eventSequence
  let entry : JobEvent :=
    { id := s!"{eventSequence}-0"
      event, timestamp
      jobId := job.map Job.id
      prev, fields }
  let s := { s with eventSequence, events := s.events ++ [entry] }
  (s.trimEventsLocked defaultJobEventRetention).1

def emitJobCreatedEventsLocked (s : InMemoryJobQueueState) (job : Job) (now : DateTime)
    : InMemoryJobQueueState :=
  let s := s.emitEventLocked "added" (some job) none now [("name", .string job.name)]
  s.emitEventLocked (jobEventForState job.state) (some job) none now []

def emitRetriesExhaustedEventLocked (s : InMemoryJobQueueState) (job : Job)
    (timestamp : DateTime)
    : InMemoryJobQueueState :=
  s.emitEventLocked "retries-exhausted" (some job) none timestamp
    [("attemptsMade", .number job.attemptsMade)]

def emitRemovedEventLocked (s : InMemoryJobQueueState) (job : Job) (timestamp : DateTime)
    : InMemoryJobQueueState :=
  s.emitEventLocked "removed" (some job) (some job.state) timestamp []

def emitDuplicatedEventLocked (s : InMemoryJobQueueState) (job : Job)
    (timestamp : DateTime)
    : InMemoryJobQueueState :=
  s.emitEventLocked "duplicated" (some job) none timestamp []

def emitCleanedEventLocked (s : InMemoryJobQueueState) (count : Nat)
    (timestamp : DateTime)
    : InMemoryJobQueueState :=
  s.emitEventLocked "cleaned" none none timestamp [("count", .number count)]

def emitDeduplicationEventsLocked (s : InMemoryJobQueueState) (eventJob : Job)
    (deduplicationId : String) (deduplicatedJobId : JobId) (timestamp : DateTime)
    : InMemoryJobQueueState :=
  let s :=
    s.emitEventLocked "debounced" (some eventJob) none timestamp
      [("debounceId", .string deduplicationId)]
  s.emitEventLocked "deduplicated" (some eventJob) none timestamp
    [("deduplicatedJobId", .string deduplicatedJobId),
      ("deduplicationId", .string deduplicationId)]

end InMemoryJobQueueState

/-- The deduplication id of a job, whether or not it still owns it. -/
def jobDeduplicationId (job : Job) : Option String :=
  job.options.deduplication.map DeduplicationOptions.id

namespace InMemoryJobQueueState

def emitDeduplicatedEventsLocked (s : InMemoryJobQueueState) (owner candidate : Job)
    (timestamp : DateTime)
    : InMemoryJobQueueState :=
  match jobDeduplicationId candidate with
  | none => s
  | some deduplicationId =>
      s.emitDeduplicationEventsLocked owner deduplicationId candidate.id timestamp

def emitReplacedDeduplicatedOwnerEventsLocked (s : InMemoryJobQueueState)
    (replacement removedOwner : Job) (timestamp : DateTime)
    : InMemoryJobQueueState :=
  match jobDeduplicationId replacement with
  | none => s
  | some deduplicationId =>
      s.emitDeduplicationEventsLocked replacement deduplicationId removedOwner.id timestamp

def emitDrainedEventIfNeededLocked (s : InMemoryJobQueueState) (timestamp : DateTime)
    : InMemoryJobQueueState :=
  let drained :=
    s.jobs.values.all (fun job => !(job.state == .waiting || job.state == .active))
  if drained then s.emitEventLocked "drained" none none timestamp [] else s

-----------------------------------------------------------------------------------------
-- Waiting order
-----------------------------------------------------------------------------------------

/-- Draws the next waiting sequence number. -/
def nextWaitingSequence (s : InMemoryJobQueueState) : InMemoryJobQueueState × Nat :=
  let sequence := saturatingSucc64 s.sequence
  ({ s with sequence }, sequence)

/-- A job that enters in the waiting state draws a sequence number. -/
def assignWaitingOrder (s : InMemoryJobQueueState) (job : Job)
    : InMemoryJobQueueState × Job :=
  if job.state = .waiting then
    let (s, enqueuedSeq) := s.nextWaitingSequence
    (s, { job with enqueuedSeq })
  else
    (s, job)

end InMemoryJobQueueState

end Lane
