import Lane.Command.Course
import Mathlib.Algebra.BigOperators.Group.Finset.Piecewise
import Mathlib.Data.Fintype.Basic
import Mathlib.Tactic.Abel

/-! What the lanes and the tasks hold of the accepted commands, and how a segment moves one of
them along its course.
-/

namespace Lane

variable {ι : Type}

-----------------------------------------------------------------------------------------
-- Holdings
-----------------------------------------------------------------------------------------

/-- How a lane or a task holds a command. A command that leaves is down to its permit. -/
inductive Holding (ι : Type) where
  | enqueuing
  | pending (handle : ι) (attempt : Nat)
  | dequeued (handle : ι) (attempt : Nat)
  | running (handle : ι) (attempt : Nat)
  | backingOff (handle : ι) (attempt : Nat)
  | lettered (handle : ι) (attempt : Nat)
  | leaving

/-- How a command is held at a point of its course. -/
def Course.holding : Course ι → Option (Holding ι)
  | .unborn | .dropped _ => none
  | .enqueuing => some .enqueuing
  | .pending handle attempt => some (.pending handle attempt)
  | .dequeued handle attempt => some (.dequeued handle attempt)
  | .running handle attempt => some (.running handle attempt)
  | .backingOff handle attempt => some (.backingOff handle attempt)
  | .lettered handle attempt => some (.lettered handle attempt)
  | .ended _ => some .leaving

/-- The places of a command that is not resolved, and the one of a permit to be dropped. -/
inductive Place where
  | enqueuing
  | pending
  | running
  | backingOff
  | leaving
deriving DecidableEq, Repr

/-- A command whose result is still to be sent counts as running. -/
def Holding.place : Holding ι → Place
  | .enqueuing => .enqueuing
  | .pending _ _ => .pending
  | .dequeued _ _ | .running _ _ | .lettered _ _ => .running
  | .backingOff _ _ => .backingOff
  | .leaving => .leaving

/-- An accepted command is in one place, or its result is sent, or it was rejected. -/
theorem Course.in_one_place {course : Course ι} (born : course ≠ .unborn)
    : let placed (place : Place) :=
        (course.holding.elim 0 singleton : Multiset (Holding ι)).countP
          (fun holding => holding.place = place)
      placed .enqueuing + placed .pending + placed .running + placed .backingOff
        + course.succeeded.toList.length + course.rejections = 1 := by
  cases course with
  | unborn => exact absurd rfl born
  | ended ending | dropped ending => cases ending <;> rfl
  | _ => rfl

theorem Course.card_holding {course : Course ι} (born : course ≠ .unborn)
    : (course.holding.elim 0 singleton : Multiset (Holding ι)).card
      = if course.drops = 0 then 1 else 0 := by
  cases course with
  | unborn => exact absurd rfl born
  | _ => rfl

/-- The commands that are held, by their numbers. -/
abbrev Held (ι : Type) := Multiset (Nat × Holding ι)

/-- What a task holds. In a queue with dead letters a failed command has left its letter. -/
def Task.holds (letters : Bool) : Task ι → Held ι
  | .accepted permit _ _ | .located permit _ _ _ | .configured permit _ _ _ _ _ =>
      {(permit.serial, .enqueuing)}
  | .saved _ _ wrapper => {(wrapper.workPermit.serial, .enqueuing)}
  | .dequeued handle wrapper =>
      {(wrapper.workPermit.serial, .dequeued handle wrapper.attempt)}
  | .running handle wrapper | .completing handle wrapper _ | .retrying handle wrapper
  | .failing handle wrapper _ =>
      {(wrapper.workPermit.serial, .running handle wrapper.attempt)}
  | .failed handle wrapper _ =>
      {(wrapper.workPermit.serial,
        if letters then .lettered handle wrapper.attempt else .running handle wrapper.attempt)}
  | .backingOff handle wrapper =>
      {(wrapper.workPermit.serial, .backingOff handle wrapper.attempt)}
  | .finishing _ (some permit) | .dropping permit => {(permit.serial, .leaving)}
  | _ => 0

/-- What a lane holds. -/
def CommandLane.holds (lane : CommandLane) (handle : ι) : Held ι :=
  lane.state.pending.map
    (fun wrapper => (wrapper.workPermit.serial, Holding.pending handle wrapper.attempt))

/-- What all lanes hold. -/
def CommandQueue.holds [Fintype ι] (queue : CommandQueue ι) : Held ι :=
  ∑ handle, (queue.lane handle).holds handle

/-- How one command is held. -/
def Held.of (held : Held ι) (serial : Nat) : Multiset (Holding ι) :=
  (held.filter (fun entry => entry.1 = serial)).map Prod.snd

section Held

variable {serial other : Nat} {holding : Holding ι}

theorem Held.of_add (held more : Held ι) (serial : Nat)
    : Held.of (held + more) serial = Held.of held serial + Held.of more serial := by
  simp [Held.of]

theorem Held.of_singleton_self (serial : Nat) (holding : Holding ι)
    : Held.of {(serial, holding)} serial = {holding} := by
  simp [Held.of, Multiset.filter_singleton]

theorem Held.of_singleton_ne (different : other ≠ serial) (holding : Holding ι)
    : Held.of {(serial, holding)} other = 0 := by
  simp [Held.of, Multiset.filter_singleton, Ne.symm different]

/-- The commands that are held add up over their numbers, by induction on the holdings. -/
theorem Held.card_eq_sum (held : Held ι) {bound : Nat}
    (bounded : ∀ serial, bound ≤ serial → Held.of held serial = 0)
    : held.card = ∑ serial ∈ Finset.range bound, (Held.of held serial).card := by
  induction held using Multiset.induction_on with
  | empty => simp [Held.of]
  | cons entry rest ih =>
      obtain ⟨own, holding⟩ := entry
      have split (serial : Nat)
          : Held.of ((own, holding) ::ₘ rest) serial
            = Held.of {(own, holding)} serial + Held.of rest serial := by
        rw [← Held.of_add, Multiset.singleton_add]
      have below : own < bound := by
        by_contra above
        have none := bounded own (not_lt.mp above)
        rw [split, Held.of_singleton_self] at none
        simp at none
      have others := ih (fun serial above => by
        have none := bounded serial above
        rw [split] at none
        have cards := congrArg Multiset.card none
        rw [Multiset.card_add, Multiset.card_zero] at cards
        exact Multiset.card_eq_zero.mp (by omega))
      have one (serial : Nat)
          : (Held.of {(own, holding)} serial).card = if serial = own then 1 else 0 := by
        by_cases same : serial = own
        · rw [same, Held.of_singleton_self]
          simp
        · rw [Held.of_singleton_ne same]
          simp [same]
      simp only [split, Multiset.card_add, Finset.sum_add_distrib, one]
      rw [Finset.sum_ite_eq', if_pos (Finset.mem_range.mpr below), Multiset.card_cons, others,
        Nat.add_comm]

end Held

-----------------------------------------------------------------------------------------
-- Lanes
-----------------------------------------------------------------------------------------

section Lanes

variable [Fintype ι] [DecidableEq ι] {queue : CommandQueue ι} {handle : ι} {lane : CommandLane}

/-- Only the lane that is written changes what the lanes hold. -/
theorem CommandQueue.holds_setLane (queue : CommandQueue ι) (handle : ι) (lane : CommandLane)
    : (queue.setLane handle lane).holds + (queue.lane handle).holds handle
      = queue.holds + lane.holds handle := by
  have split (lanes : ι → CommandLane)
      : ∑ other, (lanes other).holds other
        = (lanes handle).holds handle
          + ∑ other ∈ Finset.univ.erase handle, (lanes other).holds other :=
    (Finset.add_sum_erase Finset.univ (fun other => (lanes other).holds other)
      (Finset.mem_univ handle)).symm
  have others
      : ∑ other ∈ Finset.univ.erase handle,
          (Function.update queue.lane handle lane other).holds other
        = ∑ other ∈ Finset.univ.erase handle, (queue.lane other).holds other := by
    refine Finset.sum_congr rfl ?_
    intro other member
    rw [Function.update_of_ne (Finset.ne_of_mem_erase member)]
  unfold CommandQueue.holds CommandQueue.setLane
  simp only
  rw [split (Function.update queue.lane handle lane), split queue.lane, others,
    Function.update_self]
  abel

/-- A section that leaves the pending commands alone leaves the holdings alone. -/
theorem CommandQueue.holds_setLane_of_pending
    (same : lane.state.pending = (queue.lane handle).state.pending)
    : (queue.setLane handle lane).holds = queue.holds := by
  have sum := queue.holds_setLane handle lane
  have equal : lane.holds handle = (queue.lane handle).holds handle := by
    unfold CommandLane.holds
    rw [same]
  rw [equal] at sum
  exact add_right_cancel sum

/-- A section that appends a command adds it to the holdings. -/
theorem CommandQueue.holds_setLane_push {wrapper : CommandWrapper}
    (pushed : lane.state.pending = (queue.lane handle).state.pending ++ [wrapper])
    : (queue.setLane handle lane).holds
      = queue.holds + {(wrapper.workPermit.serial, .pending handle wrapper.attempt)} := by
  have sum := queue.holds_setLane handle lane
  have more
      : lane.holds handle
        = (queue.lane handle).holds handle
          + {(wrapper.workPermit.serial, .pending handle wrapper.attempt)} := by
    unfold CommandLane.holds
    rw [pushed, List.map_append, ← Multiset.coe_add]
    rfl
  rw [more, ← add_assoc, add_right_comm] at sum
  exact add_right_cancel sum

/-- A section that takes the front command removes it from the holdings. -/
theorem CommandQueue.holds_setLane_pop {wrapper : CommandWrapper}
    (popped : (queue.lane handle).state.pending = wrapper :: lane.state.pending)
    : (queue.setLane handle lane).holds
        + {(wrapper.workPermit.serial, .pending handle wrapper.attempt)}
      = queue.holds := by
  have sum := queue.holds_setLane handle lane
  have less
      : (queue.lane handle).holds handle
        = {(wrapper.workPermit.serial, .pending handle wrapper.attempt)} + lane.holds handle := by
    unfold CommandLane.holds
    rw [popped, List.map_cons, ← Multiset.cons_coe, Multiset.singleton_add]
  rw [less, ← add_assoc] at sum
  exact add_right_cancel sum

end Lanes

namespace CommandLane

variable {lane : CommandLane} {wrapper : CommandWrapper}

@[simp] theorem checkPressure_pending (lane : CommandLane)
    : lane.checkPressure.1.state.pending = lane.state.pending := by
  unfold checkPressure
  split
  · rfl
  · simp only
    split
    · rfl
    · split <;> rfl

@[simp] theorem tryAcquire_state (lane : CommandLane) (newTokens : Nat)
    : (lane.tryAcquire newTokens).1.state = lane.state := by
  unfold tryAcquire
  split <;> rfl

@[simp] theorem enqueue_active (lane : CommandLane) (wrapper : CommandWrapper)
    : (lane.enqueue wrapper).state.active = lane.state.active := rfl

@[simp] theorem requeue_active (lane : CommandLane) (wrapper : CommandWrapper)
    : (lane.requeue wrapper).state.active = lane.state.active := rfl

@[simp] theorem countRetry_active (lane : CommandLane)
    : lane.countRetry.state.active = lane.state.active := rfl

/-- A lane gives its front command, and only below its capacity. -/
theorem tryDequeue_some (front : lane.tryDequeue.2 = some wrapper)
    : lane.state.active < lane.state.config.maxConcurrency
      ∧ lane.state.pending = wrapper :: lane.tryDequeue.1.state.pending
      ∧ lane.tryDequeue.1.state.active = lane.state.active + 1
      ∧ lane.tryDequeue.1.state.config = lane.state.config := by
  unfold tryDequeue at front ⊢
  split at front
  · next ready =>
      rw [if_pos ready]
      obtain ⟨capacity, _⟩ := Bool.and_eq_true_iff.mp ready
      refine ⟨of_decide_eq_true capacity, ?_, rfl, rfl⟩
      exact (List.cons_head?_tail front).symm
  · cases front

/-- A lane that gives no command stays as it is. -/
theorem tryDequeue_none (nothing : lane.tryDequeue.2 = none)
    : lane.tryDequeue.1 = lane := by
  unfold tryDequeue at nothing ⊢
  split at nothing
  · next ready =>
      obtain ⟨_, pending⟩ := Bool.and_eq_true_iff.mp ready
      simp only [List.head?_eq_none_iff] at nothing
      simp [LaneState.hasPending, nothing] at pending
  · next unready => rw [if_neg unready]

end CommandLane

namespace CommandQueue

@[simp] theorem dropPermit_lane (queue : CommandQueue ι)
    : queue.dropPermit.lane = queue.lane := rfl

@[simp] theorem beginShutdown_lane (queue : CommandQueue ι)
    : queue.beginShutdown.1.lane = queue.lane := rfl

end CommandQueue

end Lane
