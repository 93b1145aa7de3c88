import Lane.Distributed.Queue

/-! Balance of the partitions: a partitioner that takes turns spreads commands evenly, up to what
the wrap of its counter can cost, and the queue has a channel for every partition that it gives.
-/

namespace Lane

variable {hashString : String → Nat} {config : PartitionConfig} {commands : List Command}
  {ids : List PartitionId}

namespace Partitioner

/-- A partitioner assigns every command, in order, to partitions that exist. -/
theorem partitionAll_bounded {partitioner : Partitioner} {numPartitions : Nat}
    (assigned : partitioner.partitionAll hashString numPartitions commands = some ids)
    : ids.length = commands.length ∧ ∀ id ∈ ids, id < numPartitions := by
  induction commands generalizing partitioner ids with
  | nil =>
      cases assigned
      exact ⟨rfl, fun _ member => absurd member List.not_mem_nil⟩
  | cons command rest ih =>
      unfold partitionAll at assigned
      split at assigned
      · cases assigned
      · rename_i first next chosen
        rw [Option.map_eq_some_iff] at assigned
        obtain ⟨others, later, rfl⟩ := assigned
        obtain ⟨lengths, bounded⟩ := ih later
        refine ⟨by simp [lengths], ?_⟩
        intro id member
        rcases List.mem_cons.mp member with rfl | within
        · exact partition_lt chosen
        · exact bounded id within

end Partitioner

/-- Taking turns, two partitions differ by at most one command and one more for every time that the
counter has wrapped; they never differ by more than one where the number of partitions divides
the range of the counter. An envelope with an assigned partition is never turned away.
-/
theorem turns_balanced (strategy : config.strategy ≠ .hash)
    (assigned
      : config.createPartitioner.partitionAll hashString config.numPartitions commands
        = some ids)
    : (∀ id other,
        id < config.numPartitions
        → other < config.numPartitions
        → ids.count id ≤ ids.count other + 1 + commands.length / usizeRange
          ∧ (config.numPartitions ∣ usizeRange → ids.count id ≤ ids.count other + 1))
      ∧ ∀ uuid, ∀ envelope : CommandEnvelope,
          envelope.partitionId ∈ ids
          → ∀ queue : LocalDistributedQueue,
              queue.partitions.length
                = (LocalDistributedQueue.new config uuid).partitions.length
              → ∀ error, queue.enqueue envelope ≠ .error error := by
  have bounded := (Partitioner.partitionAll_bounded assigned).2
  constructor
  · intro id other idKnown otherKnown
    have positive : 0 < config.numPartitions := by omega
    have turning : config.createPartitioner = .roundRobin 0 := by
      unfold PartitionConfig.createPartitioner
      cases known : config.strategy with
      | hash => exact absurd known strategy
      | roundRobin => rfl
      | none => rfl
    rw [turning, Partitioner.partitionAll_roundRobin hashString positive commands 0 (by decide),
      Option.some.injEq] at assigned
    rw [← assigned, Partitioner.count_turns positive idKnown,
      Partitioner.count_turns positive otherKnown]
    have rest :=
      Partitioner.share_le config.numPartitions (commands.length % usizeRange) id other
    constructor
    · have pass :=
        Nat.mul_le_mul_left (commands.length / usizeRange)
          (Partitioner.share_le config.numPartitions usizeRange id other)
      rw [Nat.mul_succ] at pass
      generalize commands.length / usizeRange = passes at pass ⊢
      omega
    · intro divides
      rw [Partitioner.share_of_dvd divides, Partitioner.share_of_dvd divides]
      omega
  · intro uuid envelope member queue lengths error fails
    have known := bounded _ member
    unfold LocalDistributedQueue.enqueue at fails
    split at fails
    · rename_i missing
      have sized : (LocalDistributedQueue.new config uuid).partitions.length
          = config.numPartitions :=
        List.length_replicate
      rw [List.getElem?_eq_none_iff, lengths, sized] at missing
      exact absurd missing (Nat.not_le.mpr known)
    · cases fails

theorem turns_balanced_two
    : [0, 1, 0].count 0 ≤ [0, 1, 0].count 1 + 1 + 3 / usizeRange := by
  have assigned
      : (PartitionConfig.roundRobin 2).createPartitioner.partitionAll (fun _ => 0)
          (PartitionConfig.roundRobin 2).numPartitions [⟨"a"⟩, ⟨"b"⟩, ⟨"c"⟩]
        = some [0, 1, 0] :=
    rfl
  exact ((turns_balanced (by decide) assigned).1 0 1 (by decide) (by decide)).1

end Lane
