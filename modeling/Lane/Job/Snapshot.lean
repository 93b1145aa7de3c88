import Lane.Job.Step
import Mathlib.Data.Finset.Sort
import Mathlib.Data.Prod.Lex
import Mathlib.Data.String.Basic

/-! The durable form of the queue: what is written to the snapshot file and what a queue
starts with when it is opened from one.
-/

namespace Lane

-----------------------------------------------------------------------------------------
-- Snapshots
-----------------------------------------------------------------------------------------

/-- Serializable parent-scoped flow dependency side index. -/
structure JobFlowDependencyIndex where
  parentId : JobId
  processed : HashMap JobId Value := ∅
  ignored : HashMap JobId String := ∅
  failed : List JobId := []

/-- Serializable snapshot used by durable job backends. -/
structure JobQueueSnapshot where
  queue : QueueName
  paused : Bool
  events : List JobEvent := []
  eventSequence : Nat := 0
  jobs : List Job
  deduplicationNextJobs : List Job := []
  deduplicationNextFlows : List JobFlow := []
  releasedDeduplicationOwners : List (String × JobId) := []
  flowDependencyIndexes : List JobFlowDependencyIndex := []

/-- The pairs in the order of their first and then their second parts. -/
def sortedReleasedDeduplicationOwners (releasedOwners : Finset (String × JobId))
    : List (String × JobId) :=
  (releasedOwners.map toLex.toEmbedding).sort.map ofLex

/-- The nonempty indexes by parent id. -/
def sortedFlowDependencyIndexes (indexes : HashMap JobId InMemoryFlowDependencyIndex)
    : List JobFlowDependencyIndex :=
  let kept := indexes.entries.filter (fun entry => !entry.2.isEmpty)
  let listed :=
    kept.map (fun entry =>
      ({ parentId := entry.1
         processed := entry.2.processed
         ignored := entry.2.ignored
         failed := entry.2.failed.sort }
        : JobFlowDependencyIndex))
  listed.insertionSort (fun left right => left.parentId ≤ right.parentId)

namespace InMemoryJobQueueState

/-- Captures the queue state for durable storage. -/
def snapshot (queue : QueueName) (s : InMemoryJobQueueState) : JobQueueSnapshot :=
  { queue
    paused := s.paused
    events := s.events
    eventSequence := s.eventSequence
    jobs := s.jobs.values.insertionSort listOrder
    deduplicationNextJobs :=
      (s.deduplicationNext.entries.map Sigma.snd).insertionSort listOrder
    deduplicationNextFlows :=
      (s.deduplicationNextFlows.entries.map Sigma.snd).insertionSort
        (fun left right => listOrder left.parent right.parent)
    releasedDeduplicationOwners :=
      sortedReleasedDeduplicationOwners s.releasedDeduplicationOwners
    flowDependencyIndexes := sortedFlowDependencyIndexes s.flowDependencies }

end InMemoryJobQueueState

-----------------------------------------------------------------------------------------
-- Restoring a queue
-----------------------------------------------------------------------------------------

/-- The records of a snapshot, kept candidates included. -/
def JobQueueSnapshot.allJobs (snapshot : JobQueueSnapshot) : List Job :=
  snapshot.jobs
    ++ snapshot.deduplicationNextJobs
    ++ snapshot.deduplicationNextFlows.flatMap (fun flow => flow.parent :: flow.children)

/-- Collects entries into a map; a later entry replaces an earlier one with its key. -/
def collectMap {α : Type} (entries : List (String × α)) : HashMap String α :=
  entries.foldl (fun collected entry => collected.insert entry.1 entry.2) ∅

/-- The index of one snapshot entry. -/
def JobFlowDependencyIndex.restored (index : JobFlowDependencyIndex)
    : InMemoryFlowDependencyIndex :=
  { processed := index.processed
    ignored := index.ignored
    failed := index.failed.toFinset }

/-- Restores a queue from a durable snapshot. -/
def InMemoryJobQueueState.fromSnapshot (snapshot : JobQueueSnapshot) : InMemoryJobQueueState :=
  { paused := snapshot.paused
    sequence := (snapshot.allJobs.map Job.enqueuedSeq).foldl max 0
    eventSequence := snapshot.eventSequence
    events := snapshot.events
    jobs := snapshot.jobs.foldl JobMap.insert .empty
    flowDependencies :=
      collectMap
        (snapshot.flowDependencyIndexes.filterMap (fun index =>
          if index.parentId.isEmpty || index.restored.isEmpty then
            none
          else
            some (index.parentId, index.restored)))
    deduplicationNext :=
      collectMap
        (snapshot.deduplicationNextJobs.filterMap (fun job =>
          (jobDeduplicationId job).map (fun deduplicationId => (deduplicationId, job))))
    deduplicationNextFlows :=
      collectMap
        (snapshot.deduplicationNextFlows.filterMap (fun flow =>
          (jobDeduplicationId flow.parent).map (fun deduplicationId => (deduplicationId, flow))))
    releasedDeduplicationOwners := snapshot.releasedDeduplicationOwners.toFinset }

end Lane
