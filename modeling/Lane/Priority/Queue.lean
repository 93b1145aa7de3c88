import Lane.Job.Types

/-! The stable in-process priority queue: typed values with a priority and an insertion sequence,
claimed by the host and given back when a claim does not lead to execution.
-/

namespace Lane

/-- One queued value together with its stable scheduling metadata. -/
structure PriorityItem (τ : Type) where
  priority : Nat
  sequence : Nat
  value : τ
deriving DecidableEq

/-- `BinaryHeap` gives its items up in an arbitrary order; the list is one of them. -/
structure PriorityQueue (τ : Type) where
  entries : List (PriorityItem τ) := []
  nextSequence : Nat := 0

/-- `isize::MAX`, the capacity above which the heap's buffer cannot grow. -/
def heapCapacity : Nat := 9223372036854775807

variable {τ : Type}

/-- `Ord::cmp`: both keys are reversed, so the maximum is what runs first. -/
def PriorityItem.cmp (left right : PriorityItem τ) : Ordering :=
  (compare right.priority left.priority).then (compare right.sequence left.sequence)

namespace PriorityQueue

/-- Items in the order of their sequences, renumbered from one. -/
def renumbered (drained : List (PriorityItem τ)) : List (PriorityItem τ) :=
  (drained.mergeSort (fun left right => left.sequence ≤ right.sequence)).mapIdx
    (fun index entry => { entry with sequence := index + 1 })

/-- `ensure_sequence_capacity`: at the last sequence number, the pending items are renumbered.
`drained` is the order in which the heap gives them up.
-/
def ensureSequenceCapacity (queue : PriorityQueue τ) (drained : List (PriorityItem τ))
    : PriorityQueue τ :=
  if queue.nextSequence ≠ u64Max then
    queue
  else
    { entries := renumbered drained, nextSequence := drained.length }

/-- Submits a value; the sequence number is the returned one. -/
def push (queue : PriorityQueue τ) (drained : List (PriorityItem τ)) (priority : Nat) (value : τ)
    : PriorityQueue τ × Nat :=
  let queue := queue.ensureSequenceCapacity drained
  let sequence := queue.nextSequence + 1
  let entry := { priority, sequence, value }
  ({ entries := entry :: queue.entries, nextSequence := sequence }, sequence)

/-- `pop` takes a maximum of the heap; which one is open when several compare equal. -/
structure Pops (queue : PriorityQueue τ) (item : PriorityItem τ) (rest : PriorityQueue τ)
    : Prop where
  removed : queue.entries.Perm (item :: rest.entries)
  greatest : ∀ other ∈ queue.entries, item.cmp other ≠ .lt
  sequence : rest.nextSequence = queue.nextSequence

/-- Returns a claimed item under its original sequence. -/
def restore (queue : PriorityQueue τ) (item : PriorityItem τ) : PriorityQueue τ :=
  { entries := item :: queue.entries, nextSequence := max queue.nextSequence item.sequence }

/-- `ordered`: pending items in the order of priority and sequence, sorted stably. `iterated` is
the order in which the heap is iterated over.
-/
def ordered (iterated : List (PriorityItem τ)) : List (PriorityItem τ) :=
  iterated.mergeSort (fun left right =>
    ((compare left.priority right.priority).then (compare left.sequence right.sequence)).isLE)

/-- Removes all pending values. -/
def clear (_ : PriorityQueue τ) : PriorityQueue τ := { entries := [], nextSequence := 0 }

end PriorityQueue

/-- What does not run after an item: a later priority, or the same one under a later sequence. -/
theorem PriorityItem.cmp_ne_lt_iff {left right : PriorityItem τ}
    : left.cmp right ≠ .lt
      ↔ left.priority < right.priority
        ∨ (left.priority = right.priority ∧ left.sequence ≤ right.sequence) := by
  rw [PriorityItem.cmp, ne_eq, Ordering.then_eq_lt, Nat.compare_eq_lt, Nat.compare_eq_eq,
    Nat.compare_eq_lt]
  omega

-----------------------------------------------------------------------------------------
-- Renumbering
-----------------------------------------------------------------------------------------

namespace PriorityQueue

variable {drained : List (PriorityItem τ)}

/-- The renumbered items are the old ones under their places in the order of the sequences. -/
theorem mem_renumbered {item : PriorityItem τ}
    : item ∈ renumbered drained
      ↔ ∃ (index : Nat) (within : index < (drained.mergeSort
            (fun left right => left.sequence ≤ right.sequence)).length),
          { (drained.mergeSort (fun left right => left.sequence ≤ right.sequence))[index] with
            sequence := index + 1 } = item :=
  List.mem_mapIdx

end PriorityQueue

end Lane
