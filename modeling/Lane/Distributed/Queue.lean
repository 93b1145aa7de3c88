import Lane.Distributed.Partition
import Lane.Library.BoundedChannel

/-! The local distributed queue: one bounded channel a partition and one for the results. -/

namespace Lane

abbrev WorkerId := String

structure CommandEnvelope where
  id : String
  commandType : String
  laneId : String
  partitionId : PartitionId
  payload : Value
  retryCount : Nat
  createdAt : DateTime

structure CommandResult where
  commandId : String
  result : Except String Value
  workerId : WorkerId
  durationMs : Nat

/-- How much a channel of the queue holds. -/
def channelCapacity : Nat := 1000

/-- The queue, with a sender and a receiver for each of its channels. -/
structure LocalDistributedQueue where
  workerId : WorkerId
  partitionConfig : PartitionConfig
  partitions : List (BoundedChannel CommandEnvelope channelCapacity)
  results : BoundedChannel CommandResult channelCapacity

namespace LocalDistributedQueue

/-- A queue with a generated worker id. -/
def new (partitionConfig : PartitionConfig) (uuid : String) : LocalDistributedQueue :=
  { workerId := "local-" ++ uuid
    partitionConfig
    partitions := List.replicate partitionConfig.numPartitions .empty
    results := .empty }

def invalidPartition (partitionId : PartitionId) : LaneError :=
  .other s!"Invalid partition ID: {partitionId}"

/-- The queue with the envelope in its partition's channel, or none while the call waits for
room. The receivers live as long as the queue, so that no send fails.
-/
def enqueue (queue : LocalDistributedQueue) (envelope : CommandEnvelope)
    : Result (Option LocalDistributedQueue) :=
  match queue.partitions[envelope.partitionId]? with
  | none => .error (invalidPartition envelope.partitionId)
  | some channel =>
      .ok ((channel.send envelope).map (fun channel =>
        { queue with partitions := queue.partitions.set envelope.partitionId channel }))

/-- The oldest envelope of a partition, if there is one. -/
def dequeue (queue : LocalDistributedQueue) (partitionId : PartitionId)
    : Result (LocalDistributedQueue × Option CommandEnvelope) :=
  match queue.partitions[partitionId]? with
  | none => .error (invalidPartition partitionId)
  | some channel =>
      match channel.receive with
      | none => .ok (queue, none)
      | some (envelope, channel) =>
          .ok ({ queue with partitions := queue.partitions.set partitionId channel },
            some envelope)

/-- The queue with one more result, or none while the call waits for room. -/
def complete (queue : LocalDistributedQueue) (result : CommandResult)
    : Option LocalDistributedQueue :=
  (queue.results.send result).map (fun results => { queue with results })

/-- What a coordinator receives from the result channel. -/
def receiveResult (queue : LocalDistributedQueue)
    : Option (CommandResult × LocalDistributedQueue) :=
  queue.results.receive.map (fun (result, results) => (result, { queue with results }))

def numPartitions (queue : LocalDistributedQueue) : Nat := queue.partitionConfig.numPartitions

/-- The envelopes that wait in a partition's channel, oldest first. -/
def waiting (queue : LocalDistributedQueue) (partitionId : PartitionId)
    : List CommandEnvelope :=
  (queue.partitions[partitionId]?.map BoundedChannel.buffer).getD []

@[simp] theorem waiting_new (partitionConfig : PartitionConfig) (uuid : String)
    (partitionId : PartitionId)
    : (new partitionConfig uuid).waiting partitionId = [] := by
  unfold waiting new
  rw [List.getElem?_replicate]
  split <;> rfl

@[simp] theorem waiting_results (queue : LocalDistributedQueue)
    (results : BoundedChannel CommandResult channelCapacity) (partitionId : PartitionId)
    : ({ queue with results }).waiting partitionId = queue.waiting partitionId := rfl

-----------------------------------------------------------------------------------------
-- What the calls do
-----------------------------------------------------------------------------------------

variable {queue after : LocalDistributedQueue} {envelope : CommandEnvelope}
  {result : CommandResult} {partitionId other : PartitionId}

theorem waiting_set {channel : BoundedChannel CommandEnvelope channelCapacity}
    (valid : partitionId < queue.partitions.length)
    : ({ queue with partitions := queue.partitions.set partitionId channel }).waiting other
      = if other = partitionId then channel.buffer else queue.waiting other := by
  unfold waiting
  by_cases same : other = partitionId
  · subst same
    rw [List.getElem?_set_self valid, if_pos rfl]
    rfl
  · rw [List.getElem?_set_ne (Ne.symm same), if_neg same]

/-- An envelope that is enqueued becomes the last of its partition, and nothing else changes. -/
theorem enqueue_some (enqueued : queue.enqueue envelope = .ok (some after))
    : envelope.partitionId < queue.partitions.length
      ∧ (∀ other,
          after.waiting other
          = queue.waiting other
            ++ if other = envelope.partitionId then [envelope] else [])
      ∧ after.results = queue.results
      ∧ after.partitionConfig = queue.partitionConfig
      ∧ after.partitions.length = queue.partitions.length
      ∧ after.workerId = queue.workerId := by
  unfold enqueue at enqueued
  split at enqueued
  · cases enqueued
  · rename_i channel found
    have valid := (List.getElem?_eq_some_iff.mp found).1
    simp only [Except.ok.injEq, Option.map_eq_some_iff] at enqueued
    obtain ⟨next, sent, rfl⟩ := enqueued
    refine ⟨valid, ?_, rfl, rfl, List.length_set, rfl⟩
    intro other
    rw [waiting_set valid]
    by_cases same : other = envelope.partitionId
    · subst same
      simp [waiting, found, BoundedChannel.buffer_of_send sent]
    · simp [same]

/-- An envelope that is dequeued was the first of the partition, and nothing else changes. -/
theorem dequeue_some (dequeued : queue.dequeue partitionId = .ok (after, some envelope))
    : (∀ other,
        queue.waiting other
        = (if other = partitionId then [envelope] else []) ++ after.waiting other)
      ∧ after.results = queue.results
      ∧ after.partitionConfig = queue.partitionConfig
      ∧ after.partitions.length = queue.partitions.length
      ∧ after.workerId = queue.workerId := by
  unfold dequeue at dequeued
  split at dequeued
  · cases dequeued
  · rename_i channel found
    have valid := (List.getElem?_eq_some_iff.mp found).1
    split at dequeued
    · cases dequeued
    · rename_i first rest received
      cases dequeued
      refine ⟨?_, rfl, rfl, List.length_set, rfl⟩
      intro other
      rw [waiting_set valid]
      by_cases same : other = partitionId
      · subst same
        simp [waiting, found, BoundedChannel.buffer_of_receive received]
      · simp [same]

/-- A result that is reported becomes the last one, and nothing else changes. -/
theorem complete_some (completed : queue.complete result = some after)
    : after.results.buffer = queue.results.buffer ++ [result]
      ∧ after = { queue with results := after.results } := by
  unfold complete at completed
  rw [Option.map_eq_some_iff] at completed
  obtain ⟨results, sent, rfl⟩ := completed
  exact ⟨BoundedChannel.buffer_of_send sent, rfl⟩

/-- A result that is received was the first one, and nothing else changes. -/
theorem receiveResult_some (received : queue.receiveResult = some (result, after))
    : queue.results.buffer = result :: after.results.buffer
      ∧ after = { queue with results := after.results } := by
  unfold receiveResult at received
  rw [Option.map_eq_some_iff] at received
  obtain ⟨⟨first, results⟩, taken, same⟩ := received
  cases same
  exact ⟨BoundedChannel.buffer_of_receive taken, rfl⟩

end LocalDistributedQueue

end Lane
