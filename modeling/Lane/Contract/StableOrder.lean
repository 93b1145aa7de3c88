import Lane.Library.LabelledSystem
import Lane.Priority.Queue

/-! The stable priority queue over whole runs: the host pushes, claims, gives claimed items back
and clears, and every claim answers the earliest push of the least priority as long as items are
given back to the place they were pushed to.
-/

namespace Lane

/-- A value together with the number of pushes before its own. -/
structure Stamped (τ : Type) where
  stamp : Nat
  value : τ
deriving DecidableEq

/-- A queue in its host's hands: the pushes so far and the claimed items not given back. -/
structure QueueRun (τ : Type) where
  queue : PriorityQueue (Stamped τ)
  pushes : Nat := 0
  claimed : List (PriorityItem (Stamped τ)) := []

/-- The calls of the host, with what they answer. -/
inductive QueueCall (τ : Type)
  | push (priority : Nat) (value : τ)
  | pop (answer : Option (PriorityItem (Stamped τ)))
  | restore (item : PriorityItem (Stamped τ))
  | clear

variable {τ : Type}

namespace QueueRun

/-- The queue in the host's hands after a push. -/
def push (state : QueueRun τ) (drained : List (PriorityItem (Stamped τ))) (priority : Nat)
    (value : τ)
    : QueueRun τ :=
  { state with
    queue := (state.queue.push drained priority { stamp := state.pushes, value }).1
    pushes := state.pushes + 1 }

/-- One call of the host. -/
inductive Step : QueueRun τ → QueueCall τ → QueueRun τ → Prop
  | push {state : QueueRun τ} {drained : List (PriorityItem (Stamped τ))} {priority : Nat}
    {value : τ} (room : state.queue.entries.length < heapCapacity)
    (drains : drained.Perm state.queue.entries)
    : Step state (.push priority value) (state.push drained priority value)
  | pop {state : QueueRun τ} {item : PriorityItem (Stamped τ)} {rest : PriorityQueue (Stamped τ)}
    (pops : state.queue.Pops item rest)
    : Step state (.pop (some item)) { state with queue := rest, claimed := item :: state.claimed }
  | empty {state : QueueRun τ} (nothing : state.queue.entries = []) : Step state (.pop none) state
  | restore {state : QueueRun τ} {item : PriorityItem (Stamped τ)}
    {others : List (PriorityItem (Stamped τ))} (holds : state.claimed.Perm (item :: others))
    : Step state (.restore item)
        { state with queue := state.queue.restore item, claimed := others }
  | clear {state : QueueRun τ} : Step state .clear { state with queue := state.queue.clear }

/-- A fresh queue, whose sequence counter may stand anywhere. -/
structure Starts (state : QueueRun τ) : Prop where
  empty : state.queue.entries = []
  unclaimed : state.claimed = []
  unpushed : state.pushes = 0
  counter : state.queue.nextSequence ≤ u64Max

end QueueRun

/-- The host's calls as a transition system. -/
def priorityQueueSystem (τ : Type) : LabelledSystem (QueueRun τ) (QueueCall τ) where
  Step := QueueRun.Step

/-- Within a priority, the two sequence numbers stand to one another as the two pushes do. -/
def PushedInOrder (left right : PriorityItem (Stamped τ)) : Prop :=
  left.priority = right.priority →
    (left.sequence < right.sequence ∧ left.value.stamp < right.value.stamp)
      ∨ (right.sequence < left.sequence ∧ right.value.stamp < left.value.stamp)

/-- An item given back is in order with every pending item. -/
def RestoresInPlace (state : QueueRun τ) : QueueCall τ → Prop
  | .restore item => ∀ other ∈ state.queue.entries, PushedInOrder item other
  | _ => True

/-- Nothing is claimed when the queue is cleared or its sequences are renumbered. -/
def ResetsUnclaimed (state : QueueRun τ) : QueueCall τ → Prop
  | .push _ _ => state.queue.nextSequence = u64Max → state.claimed = []
  | .clear => state.claimed = []
  | _ => True

theorem PushedInOrder.symm {left right : PriorityItem (Stamped τ)} (order : PushedInOrder left right)
    : PushedInOrder right left :=
  fun same => (order same.symm).symm

-----------------------------------------------------------------------------------------
-- Collections of items in order
-----------------------------------------------------------------------------------------

/-- Items pairwise in order, under sequences and pushes that have been given out already. -/
structure Orderly (items : List (PriorityItem (Stamped τ))) (nextSequence pushes : Nat) : Prop where
  inOrder : items.Pairwise PushedInOrder
  sequenced : ∀ item ∈ items, item.sequence ≤ nextSequence
  stamped : ∀ item ∈ items, item.value.stamp < pushes

namespace Orderly

variable {items others : List (PriorityItem (Stamped τ))} {item : PriorityItem (Stamped τ)}
variable {nextSequence pushes later more : Nat}

theorem nil : Orderly ([] : List (PriorityItem (Stamped τ))) nextSequence pushes :=
  ⟨.nil, by simp, by simp⟩

theorem perm (orderly : Orderly items nextSequence pushes) (same : items.Perm others)
    : Orderly others nextSequence pushes := by
  refine ⟨(same.pairwise_iff PushedInOrder.symm).mp orderly.inOrder, ?_, ?_⟩
  · exact fun item within => orderly.sequenced item (same.mem_iff.mpr within)
  · exact fun item within => orderly.stamped item (same.mem_iff.mpr within)

theorem sublist (orderly : Orderly items nextSequence pushes) (fewer : others.Sublist items)
    : Orderly others nextSequence pushes := by
  refine ⟨orderly.inOrder.sublist fewer, ?_, ?_⟩
  · exact fun item within => orderly.sequenced item (fewer.subset within)
  · exact fun item within => orderly.stamped item (fewer.subset within)

/-- Later counters keep a collection orderly. -/
theorem mono (orderly : Orderly items nextSequence pushes) (sequences : nextSequence ≤ later)
    (stamps : pushes ≤ more)
    : Orderly items later more := by
  refine ⟨orderly.inOrder, ?_, ?_⟩
  · exact fun item within => (orderly.sequenced item within).trans sequences
  · exact fun item within => (orderly.stamped item within).trans_le stamps

/-- A pushed item gets a new sequence and a new stamp. -/
theorem pushed (orderly : Orderly items nextSequence pushes) (priority : Nat) (value : τ)
    : Orderly
        ({ priority, sequence := nextSequence + 1, value := { stamp := pushes, value } } :: items)
        (nextSequence + 1) (pushes + 1) := by
  refine ⟨.cons ?_ orderly.inOrder, ?_, ?_⟩
  · intro other within same
    exact .inr ⟨Nat.lt_succ_of_le (orderly.sequenced other within), orderly.stamped other within⟩
  · intro item within
    rcases List.mem_cons.mp within with rfl | within
    · exact le_rfl
    · exact (orderly.sequenced item within).trans (Nat.le_succ _)
  · intro item within
    rcases List.mem_cons.mp within with rfl | within
    · exact Nat.lt_succ_self _
    · exact (orderly.stamped item within).trans (Nat.lt_succ_self _)

/-- Renumbering keeps the order: the items are numbered in the order of their sequences. -/
theorem renumbered (orderly : Orderly items nextSequence pushes)
    : Orderly (PriorityQueue.renumbered items) items.length pushes := by
  have sorts := List.mergeSort_perm items (fun left right => left.sequence ≤ right.sequence)
  have sorted := orderly.perm sorts.symm
  have ascends : (items.mergeSort (fun left right => left.sequence ≤ right.sequence)).Pairwise
      (fun left right => decide (left.sequence ≤ right.sequence)) :=
    List.pairwise_mergeSort (by grind) (by grind) items
  refine ⟨List.pairwise_iff_getElem.mpr ?_, ?_, ?_⟩
  · intro i j hi hj less
    simp only [PriorityQueue.renumbered, List.length_mapIdx] at hi hj
    have order := List.pairwise_iff_getElem.mp sorted.inOrder i j hi hj less
    have ascend := List.pairwise_iff_getElem.mp ascends i j hi hj less
    simp only [PriorityQueue.renumbered, List.getElem_mapIdx]
    intro same
    rcases order same with ⟨_, stamps⟩ | ⟨descend, _⟩
    · exact .inl ⟨by simpa using less, stamps⟩
    · have ascends := of_decide_eq_true ascend
      omega
  · intro item within
    obtain ⟨index, bound, rfl⟩ := PriorityQueue.mem_renumbered.mp within
    rw [sorts.length_eq] at bound
    exact bound
  · intro item within
    obtain ⟨index, bound, rfl⟩ := PriorityQueue.mem_renumbered.mp within
    have stamped := sorted.stamped _ (List.getElem_mem bound)
    exact stamped

end Orderly

-----------------------------------------------------------------------------------------
-- One call
-----------------------------------------------------------------------------------------

namespace QueueRun

variable {state next : QueueRun τ} {call : QueueCall τ} {item : PriorityItem (Stamped τ)}

/-- The pending items are orderly, and the claimed ones were pushed before. -/
structure Sound (state : QueueRun τ) : Prop where
  pending : Orderly state.queue.entries state.queue.nextSequence state.pushes
  claimed : ∀ item ∈ state.claimed, item.value.stamp < state.pushes

/-- The claimed and the pending items together are orderly. -/
def Whole (state : QueueRun τ) : Prop :=
  Orderly (state.claimed ++ state.queue.entries) state.queue.nextSequence state.pushes

theorem Starts.sound (starts : state.Starts) : state.Sound := by
  constructor
  · rw [starts.empty]
    exact .nil
  · simp [starts.unclaimed]

theorem Starts.whole (starts : state.Starts) : state.Whole := by
  simp only [Whole, starts.empty, starts.unclaimed, List.append_nil]
  exact .nil

end QueueRun

/-- Making room for a sequence number keeps the pending items orderly. -/
theorem Orderly.ensured {queue : PriorityQueue (Stamped τ)}
    {drained : List (PriorityItem (Stamped τ))} {pushes : Nat}
    (orderly : Orderly queue.entries queue.nextSequence pushes)
    (drains : drained.Perm queue.entries)
    : Orderly (queue.ensureSequenceCapacity drained).entries
        (queue.ensureSequenceCapacity drained).nextSequence pushes := by
  unfold PriorityQueue.ensureSequenceCapacity
  split
  · exact orderly
  · exact (orderly.perm drains.symm).renumbered

namespace QueueRun

variable {state next : QueueRun τ} {call : QueueCall τ} {item : PriorityItem (Stamped τ)}

/-- Every call that restores in place keeps the pending items orderly. -/
theorem Sound.step (sound : state.Sound) (allowed : RestoresInPlace state call)
    (step : Step state call next)
    : next.Sound := by
  cases step with
  | push room drains =>
      constructor
      · exact (sound.pending.ensured drains).pushed _ _
      · exact fun item within => (sound.claimed item within).trans (Nat.lt_succ_self _)
  | @pop item rest pops =>
      have split := sound.pending.perm pops.removed
      constructor
      · have kept := split.sublist (List.sublist_cons_self item rest.entries)
        rw [← pops.sequence] at kept
        exact kept
      · intro other within
        rcases List.mem_cons.mp within with rfl | within
        · exact split.stamped _ List.mem_cons_self
        · exact sound.claimed other within
  | empty => exact sound
  | @restore item others holds =>
      have later := sound.pending.mono (le_max_left state.queue.nextSequence item.sequence) le_rfl
      constructor
      · refine ⟨.cons allowed later.inOrder, ?_, ?_⟩
        · intro other within
          rcases List.mem_cons.mp within with rfl | within
          · exact le_max_right _ _
          · exact later.sequenced other within
        · intro other within
          rcases List.mem_cons.mp within with rfl | within
          · exact sound.claimed _ (holds.mem_iff.mpr List.mem_cons_self)
          · exact later.stamped other within
      · exact fun other within => sound.claimed other (holds.mem_iff.mpr (.tail _ within))
  | clear => exact ⟨.nil, sound.claimed⟩

/-- Every call that resets the sequences only without claimed items keeps all items orderly. -/
theorem Whole.step (whole : state.Whole) (allowed : ResetsUnclaimed state call)
    (step : Step state call next)
    : next.Whole := by
  cases step with
  | @push drained priority value room drains =>
      have pushed : Orderly (state.claimed ++ (state.queue.ensureSequenceCapacity drained).entries)
          (state.queue.ensureSequenceCapacity drained).nextSequence state.pushes := by
        by_cases last : state.queue.nextSequence = u64Max
        · have unclaimed := allowed last
          simp only [Whole, unclaimed, List.nil_append] at whole ⊢
          exact whole.ensured drains
        · simp only [PriorityQueue.ensureSequenceCapacity, if_pos last]
          exact whole
      exact (pushed.pushed priority value).perm List.perm_middle.symm
  | @pop item rest pops =>
      have split := whole.perm ((pops.removed.append_left state.claimed).trans List.perm_middle)
      rw [← pops.sequence] at split
      exact split
  | empty => exact whole
  | @restore item others holds =>
      have split := whole.perm ((holds.append_right _).trans List.perm_middle.symm)
      exact split.mono (le_max_left _ _) le_rfl
  | clear =>
      have unclaimed : state.claimed = [] := allowed
      simp only [Whole, unclaimed, List.nil_append]
      exact .nil

/-- Items in order that were all counted are restored in place. -/
theorem Whole.restoresInPlace (whole : state.Whole) (step : Step state call next)
    : RestoresInPlace state call := by
  cases step with
  | @restore item others holds =>
      have split := whole.perm (holds.append_right _)
      have inOrder := (List.pairwise_cons.mp split.inOrder).1
      exact fun other within => inOrder other (List.mem_append_right others within)
  | _ => trivial

/-- A claim answers the earliest push of the least priority. -/
theorem Sound.pops_earliest (sound : state.Sound) {rest : PriorityQueue (Stamped τ)}
    (pops : state.queue.Pops item rest)
    : ∀ other ∈ rest.entries, item.priority < other.priority
        ∨ (item.priority = other.priority ∧ item.value.stamp < other.value.stamp) := by
  intro other within
  have split := sound.pending.perm pops.removed
  have order := (List.pairwise_cons.mp split.inOrder).1 other within
  have greatest := PriorityItem.cmp_ne_lt_iff.mp
    (pops.greatest other (pops.removed.mem_iff.mpr (.tail _ within)))
  rcases greatest with less | ⟨same, ascends⟩
  · exact .inl less
  · rcases order same with ⟨_, stamps⟩ | ⟨descends, _⟩
    · exact .inr ⟨same, stamps⟩
    · omega

end QueueRun

-----------------------------------------------------------------------------------------
-- Whole runs
-----------------------------------------------------------------------------------------

open QueueRun

variable {start state next : QueueRun τ} {item : PriorityItem (Stamped τ)}

/-- Resetting the sequences only without claimed items is enough to restore in place. -/
theorem restoresInPlace_of_resetsUnclaimed (starts : start.Starts)
    (run : (priorityQueueSystem τ).Run ResetsUnclaimed start state)
    : (priorityQueueSystem τ).Run RestoresInPlace start state := by
  have strengthened : state.Whole ∧ (priorityQueueSystem τ).Run RestoresInPlace start state := by
    induction run with
    | refl => exact ⟨starts.whole, .refl _⟩
    | tail _ allowed step ih =>
        exact ⟨ih.1.step allowed step, .tail ih.2 (ih.1.restoresInPlace step) step⟩
  exact strengthened.2

/-- What a claim promises: the claimed item leaves the pending ones, and comes before each of
them by its priority or, within it, by its push; and only an empty queue answers nothing.
-/
def ClaimsEarliest (state : QueueRun τ) : QueueCall τ → QueueRun τ → Prop
  | .pop (some item), next => state.queue.entries.Perm (item :: next.queue.entries)
      ∧ ∀ other ∈ next.queue.entries, item.priority < other.priority
        ∨ (item.priority = other.priority ∧ item.value.stamp < other.value.stamp)
  | .pop none, _ => state.queue.entries = []
  | _, _ => True

/-- Every claim of a run that restores in place answers the earliest push of the least priority. -/
theorem claims_earliest_while_restored_in_place (starts : start.Starts) {call : QueueCall τ}
    (run : (priorityQueueSystem τ).Run RestoresInPlace start state)
    (step : (priorityQueueSystem τ).Step state call next)
    : ClaimsEarliest state call next := by
  have sound := run.invariant Sound starts.sound (fun sound allowed step => sound.step allowed step)
  cases step with
  | pop pops => exact ⟨pops.removed, sound.pops_earliest pops⟩
  | empty nothing => exact nothing
  | _ => trivial

-----------------------------------------------------------------------------------------
-- Two runs
-----------------------------------------------------------------------------------------

namespace QueueRun

/-- An empty queue of which nothing has been claimed. -/
def fresh (τ : Type) : QueueRun τ := { queue := {} }

/-- The state after a claim of this item. -/
def take [DecidableEq τ] (state : QueueRun τ) (item : PriorityItem (Stamped τ)) : QueueRun τ :=
  { state with
    queue := { state.queue with entries := state.queue.entries.erase item }
    claimed := item :: state.claimed }

/-- The state after this item was given back. -/
def giveBack [DecidableEq τ] (state : QueueRun τ) (item : PriorityItem (Stamped τ)) : QueueRun τ :=
  { state with queue := state.queue.restore item, claimed := state.claimed.erase item }

theorem fresh_starts : (fresh τ).Starts := ⟨rfl, rfl, rfl, Nat.zero_le _⟩

theorem step_push (room : state.queue.entries.length < heapCapacity) (priority : Nat) (value : τ)
    : Step state (.push priority value) (state.push state.queue.entries priority value) :=
  .push room (.refl _)

theorem step_take [DecidableEq τ] (item : PriorityItem (Stamped τ))
    (pending : item ∈ state.queue.entries)
    (greatest : ∀ other ∈ state.queue.entries, item.cmp other ≠ .lt)
    : Step state (.pop (some item)) (state.take item) :=
  .pop ⟨List.perm_cons_erase pending, greatest, rfl⟩

theorem step_giveBack [DecidableEq τ] (item : PriorityItem (Stamped τ))
    (claimed : item ∈ state.claimed)
    : Step state (.restore item) (state.giveBack item) :=
  .restore (List.perm_cons_erase claimed)

/-- An item of priority one, with the number of its push and its sequence. -/
def itemOf (stamp sequence : Nat) : PriorityItem (Stamped Unit) :=
  { priority := 1, sequence, value := { stamp, value := () } }

/-- Two values are pushed. -/
def twoPushed : QueueRun Unit := ((fresh Unit).push [] 1 ()).push [itemOf 0 1] 1 ()

theorem reaches_twoPushed (allow : QueueRun Unit → QueueCall Unit → Prop)
    (allows : ∀ state, allow state (.push 1 ()))
    : (priorityQueueSystem Unit).Run allow (fresh Unit) twoPushed :=
  .tail (.single (allows _) (step_push (by decide) 1 ())) (allows _) (step_push (by decide) 1 ())

/-- The first value is claimed and given back. -/
def givenBack : QueueRun Unit := (twoPushed.take (itemOf 0 1)).giveBack (itemOf 0 1)

/-- Both values are claimed, the queue is cleared, a third value is pushed, and the second of the
claimed ones is given back.
-/
def givenBackLate : QueueRun Unit :=
  ((({ (twoPushed.take (itemOf 0 1)).take (itemOf 1 2) with
    queue := PriorityQueue.clear twoPushed.queue } : QueueRun Unit).push [] 1 ())).giveBack
      (itemOf 1 2)

theorem reaches_givenBackLate : (priorityQueueSystem Unit).Reaches (fresh Unit) givenBackLate := by
  have first := (reaches_twoPushed (fun _ _ => True) (fun _ => trivial)).tail trivial
    (step_take (itemOf 0 1) (by decide) (by decide))
  have second := first.tail trivial (step_take (itemOf 1 2) (by decide) (by decide))
  have third := (second.tail trivial .clear).tail trivial (step_push (by decide) 1 ())
  exact third.tail trivial (step_giveBack _ (by decide))

end QueueRun

/-- A claimed item that was given back to its place is claimed first again. -/
theorem claims_earliest_after_restore
    : ClaimsEarliest givenBack (.pop (some (itemOf 0 1))) (givenBack.take (itemOf 0 1)) := by
  refine claims_earliest_while_restored_in_place fresh_starts ?_
    (step_take _ (by decide) (by decide))
  have claimed : (priorityQueueSystem Unit).Run RestoresInPlace (fresh Unit)
      (twoPushed.take (itemOf 0 1)) :=
    (reaches_twoPushed RestoresInPlace (fun _ => trivial)).tail (a := .pop (some (itemOf 0 1)))
      trivial (step_take _ (by decide) (by decide))
  refine claimed.tail (a := .restore (itemOf 0 1)) ?_ (step_giveBack _ (by decide))
  unfold RestoresInPlace PushedInOrder
  decide

/-- A clear in between moves an item that is given back behind a later push. -/
theorem later_push_claimed_before_restored
    : ¬ ∀ start state next : QueueRun Unit, ∀ call, start.Starts →
        (priorityQueueSystem Unit).Reaches start state →
        (priorityQueueSystem Unit).Step state call next → ClaimsEarliest state call next := by
  intro promised
  have claims := promised _ _ (givenBackLate.take (itemOf 2 1)) (.pop (some (itemOf 2 1)))
    fresh_starts reaches_givenBackLate (step_take _ (by decide) (by decide))
  exact absurd (claims.2 (itemOf 1 2) (by decide)) (by decide)

end Lane
