import Lane.Command.Lane
import Mathlib.Data.Int.CardIntervalMod

/-! Partitioners: how commands are assigned to partitions, and how evenly taking turns does it. -/

namespace Lane

abbrev PartitionId := Nat

/-- The values of a machine word that counts calls. -/
def usizeRange : Nat := 2 ^ 64

-----------------------------------------------------------------------------------------
-- Configurations
-----------------------------------------------------------------------------------------

inductive PartitionStrategy where
  | roundRobin
  | hash
  | none
deriving DecidableEq, Repr

structure PartitionConfig where
  numPartitions : Nat
  strategy : PartitionStrategy

namespace PartitionConfig

/-- One partition a core, in turns. -/
def auto (numCores : Nat) : PartitionConfig :=
  { numPartitions := numCores, strategy := .roundRobin }

def hash (numPartitions : Nat) : PartitionConfig := { numPartitions, strategy := .hash }

def roundRobin (numPartitions : Nat) : PartitionConfig :=
  { numPartitions, strategy := .roundRobin }

def none : PartitionConfig := { numPartitions := 1, strategy := .none }

end PartitionConfig

-----------------------------------------------------------------------------------------
-- Partitioners
-----------------------------------------------------------------------------------------

/-- The partitioners, with the state that the calls of one share. -/
inductive Partitioner where
  | roundRobin (counter : Nat)
  | hash
  | custom (func : String → Nat)

def PartitionConfig.createPartitioner (config : PartitionConfig) : Partitioner :=
  match config.strategy with
  | .roundRobin => .roundRobin 0
  | .hash => .hash
  | .none => .roundRobin 0

namespace Partitioner

section

-- The hash of a string, 64 bits wide.
variable (hashString : String → Nat)

/-- The partition of a command and the partitioner after the call, or none where the remainder
by zero panics.
-/
def partition (partitioner : Partitioner) (command : Command) (numPartitions : Nat)
    : Option (PartitionId × Partitioner) :=
  if numPartitions = 0 then
    none
  else
    match partitioner with
    | .roundRobin counter =>
        some (counter % numPartitions, .roundRobin ((counter + 1) % usizeRange))
    | .hash => some (hashString command.commandType % numPartitions, .hash)
    | .custom func => some (func command.commandType % numPartitions, .custom func)

/-- The partitions of commands that are assigned one after the other. -/
def partitionAll (partitioner : Partitioner) (numPartitions : Nat)
    : List Command → Option (List PartitionId)
  | [] => some []
  | command :: commands =>
      match partitioner.partition hashString command numPartitions with
      | none => none
      | some (id, next) =>
          (partitionAll next numPartitions commands).map (fun ids => id :: ids)

end

variable {hashString : String → Nat} {partitioner next : Partitioner} {command : Command}
  {numPartitions : Nat} {id : PartitionId}

/-- Every partition that is assigned exists. -/
theorem partition_lt
    (assigned : partitioner.partition hashString command numPartitions = some (id, next))
    : id < numPartitions := by
  unfold partition at assigned
  split at assigned
  · cases assigned
  · rename_i some
    have positive : 0 < numPartitions := by omega
    split at assigned <;>
      · cases assigned
        exact Nat.mod_lt _ positive

-----------------------------------------------------------------------------------------
-- Taking turns
-----------------------------------------------------------------------------------------

/-- The turns from a counter value on, as the partitions that they give. -/
def turns (numPartitions counter count : Nat) : List PartitionId :=
  (List.range count).map (fun turn => (counter + turn) % usizeRange % numPartitions)

/-- A partitioner that takes turns gives the turns from its counter on. -/
theorem partitionAll_roundRobin (hashString : String → Nat) (positive : 0 < numPartitions)
    (commands : List Command)
    : ∀ counter < usizeRange,
        (roundRobin counter).partitionAll hashString numPartitions commands
        = some (turns numPartitions counter commands.length) := by
  induction commands with
  | nil => exact fun _ _ => rfl
  | cons command rest ih =>
      intro counter bounded
      have wrapped : (counter + 1) % usizeRange < usizeRange :=
        Nat.mod_lt _ (by decide)
      have later : ∀ turn,
          ((counter + 1) % usizeRange + turn) % usizeRange = (counter + (turn + 1)) % usizeRange := by
        intro turn
        rw [Nat.mod_add_mod, Nat.add_assoc, Nat.add_comm 1]
      simp only [partitionAll, partition, Nat.ne_of_gt positive, if_false, ih _ wrapped,
        Option.map_some, turns, List.length_cons, List.range_succ_eq_map, List.map_cons,
        List.map_map, Nat.add_zero, Nat.mod_eq_of_lt bounded]
      congr 2
      refine List.map_congr_left (fun turn _ => ?_)
      simp only [Function.comp_apply, later]

/-- A partition's share of the first turns. -/
def share (numPartitions turns : Nat) (id : PartitionId) : Nat :=
  turns / numPartitions + if id < turns % numPartitions then 1 else 0

theorem share_le (numPartitions turns : Nat) (id other : PartitionId)
    : share numPartitions turns id ≤ share numPartitions turns other + 1 := by
  unfold share
  split_ifs <;> omega

theorem share_of_dvd {turns : Nat} (divides : numPartitions ∣ turns) (id : PartitionId)
    : share numPartitions turns id = turns / numPartitions := by
  unfold share
  rw [Nat.mod_eq_zero_of_dvd divides]
  rfl

/-- How often the first turns of one pass over the counter give a partition. -/
theorem count_pass (positive : 0 < numPartitions) (known : id < numPartitions) (turns : Nat)
    : ((List.range turns).map (· % numPartitions)).count id = share numPartitions turns id := by
  have counted : ((List.range turns).map (· % numPartitions)).count id
      = turns.count (· ≡ id [MOD numPartitions]) := by
    rw [List.count, List.countP_map, Nat.count]
    refine List.countP_congr (fun turn _ => ?_)
    simp [Nat.ModEq, Nat.mod_eq_of_lt known]
  rw [counted, Nat.count_modEq_card _ positive, Nat.mod_eq_of_lt known, share]

/-- What repeats after so many numbers is counted pass by pass, by induction on the passes. -/
theorem count_periodic {p : Nat → Prop} [DecidablePred p] {range : Nat}
    (periodic : ∀ turn, p (range + turn) ↔ p turn) (passes rest : Nat)
    : (passes * range + rest).count p = passes * range.count p + rest.count p := by
  induction passes with
  | zero => simp
  | succ passes ih =>
      have split : (passes + 1) * range + rest = range + (passes * range + rest) := by
        rw [Nat.succ_mul]
        omega
      have shifted : (passes * range + rest).count (fun turn => p (range + turn))
          = (passes * range + rest).count p := by
        simp only [periodic]
      rw [split, Nat.count_add, shifted, ih, Nat.succ_mul]
      omega

/-- How often a new partitioner's turns give a partition: its share of every whole pass of the
counter and of the pass that is going on.
-/
theorem count_turns (positive : 0 < numPartitions) (known : id < numPartitions) (count : Nat)
    : (turns numPartitions 0 count).count id
      = count / usizeRange * share numPartitions usizeRange id
        + share numPartitions (count % usizeRange) id := by
  have counted : (turns numPartitions 0 count).count id
      = count.count (fun turn => turn % usizeRange % numPartitions = id) := by
    rw [turns, List.count, List.countP_map, Nat.count]
    refine List.countP_congr (fun turn _ => ?_)
    simp
  have onePass : ∀ turns ≤ usizeRange,
      turns.count (fun turn => turn % usizeRange % numPartitions = id)
      = share numPartitions turns id := by
    intro turns bounded
    rw [← count_pass positive known, List.count, List.countP_map, Nat.count]
    refine List.countP_congr (fun turn within => ?_)
    have small := List.mem_range.mp within
    simp [Nat.mod_eq_of_lt (Nat.lt_of_lt_of_le small bounded)]
  have periodic : ∀ turn,
      (usizeRange + turn) % usizeRange % numPartitions = id
      ↔ turn % usizeRange % numPartitions = id := by
    intro turn
    rw [Nat.add_mod_left]
  have passes :=
    count_periodic (p := fun turn => turn % usizeRange % numPartitions = id) periodic
      (count / usizeRange) (count % usizeRange)
  rw [Nat.div_add_mod'] at passes
  rw [counted, passes, onePass _ (Nat.le_refl _),
    onePass _ (Nat.le_of_lt (Nat.mod_lt _ (by decide)))]

end Partitioner

end Lane
