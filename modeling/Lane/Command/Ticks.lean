import Lane.Command.Dispatch
import Lane.Command.Holdings

/-! What a tick of the scheduler does to every lane: the lanes that it polls are those ranked up to
the first one that can dispatch.
-/

namespace Lane

variable {ι : Type} [DecidableEq ι]

-----------------------------------------------------------------------------------------
-- Polling one lane
-----------------------------------------------------------------------------------------

namespace CommandLane

variable {lane : CommandLane} {newTokens : Nat}

/-- A command waits, and there is room for it. -/
def isReady (lane : CommandLane) : Bool := lane.state.hasCapacity && lane.state.hasPending

/-- A poll of the lane gives a command: it is ready, and its rate limiter lets it. -/
def dispatches (lane : CommandLane) (newTokens : Nat) : Bool :=
  (lane.tryAcquire newTokens).2 && lane.isReady

theorem tryDequeue_eq (lane : CommandLane)
    : lane.tryDequeue
      = if lane.isReady then
          ({ lane with
              state :=
                { lane.state with
                  active := lane.state.active + 1
                  pending := lane.state.pending.tail } },
            lane.state.pending.head?)
        else (lane, none) :=
  rfl

theorem isReady_congr {other : CommandLane} (same : other.state = lane.state)
    : other.isReady = lane.isReady := by
  rw [isReady, isReady, same]

/-- A poll that dispatches takes the front command and a place of the lane. -/
theorem poll_of_dispatches (dispatches : lane.dispatches newTokens = true)
    : (lane.poll newTokens).2 = lane.state.pending.head?
      ∧ (lane.poll newTokens).1.state
        = { lane.state with
            active := lane.state.active + 1
            pending := lane.state.pending.tail } := by
  obtain ⟨acquired, ready⟩ := Bool.and_eq_true_iff.mp dispatches
  have ready : (lane.tryAcquire newTokens).1.isReady = true := by
    rw [isReady_congr (tryAcquire_state lane newTokens)]
    exact ready
  rw [poll, if_pos acquired, tryDequeue_eq, if_pos ready, tryAcquire_state]
  exact ⟨rfl, rfl⟩

/-- Any other poll gives nothing and only asks the rate limiter. -/
theorem poll_of_not_dispatches (idle : lane.dispatches newTokens = false)
    : lane.poll newTokens = ((lane.tryAcquire newTokens).1, none) := by
  rw [poll]
  by_cases acquired : (lane.tryAcquire newTokens).2 = true
  · have unready : ¬ (lane.tryAcquire newTokens).1.isReady = true := by
      rw [isReady_congr (tryAcquire_state lane newTokens)]
      intro ready
      rw [CommandLane.dispatches, acquired, ready] at idle
      cases idle
    rw [if_pos acquired, tryDequeue_eq, if_neg unready]
  · rw [if_neg acquired]

/-- The front command of a lane that dispatches. -/
theorem exists_front (ready : lane.isReady = true)
    : ∃ wrapper, lane.state.pending.head? = some wrapper := by
  obtain ⟨_, pending⟩ := Bool.and_eq_true_iff.mp ready
  cases front : lane.state.pending with
  | nil => simp [LaneState.hasPending, front] at pending
  | cons wrapper rest => exact ⟨wrapper, rfl⟩

end CommandLane

-----------------------------------------------------------------------------------------
-- Polling the lanes
-----------------------------------------------------------------------------------------

section Polls

variable {lane : ι → CommandLane} {queue : CommandQueue ι} {newTokens : ι → Nat} {handles : List ι}

/-- The first lane of the list that dispatches. -/
def firstDispatching (lane : ι → CommandLane) (newTokens : ι → Nat) (handles : List ι)
    : Option ι :=
  handles.find? (fun handle => (lane handle).dispatches (newTokens handle))

/-- The lanes that are polled in vain: those before the first one that dispatches. -/
def polledInVain (lane : ι → CommandLane) (newTokens : ι → Nat) (handles : List ι) : List ι :=
  handles.takeWhile (fun handle => !(lane handle).dispatches (newTokens handle))

/-- All lanes that are polled. -/
def polled (lane : ι → CommandLane) (newTokens : ι → Nat) (handles : List ι) : List ι :=
  polledInVain lane newTokens handles ++ (firstDispatching lane newTokens handles).toList

omit [DecidableEq ι] in
theorem firstDispatching_cons {handle : ι} (rest : List ι)
    (idle : (lane handle).dispatches (newTokens handle) = false)
    : firstDispatching lane newTokens (handle :: rest)
      = firstDispatching lane newTokens rest := by
  rw [firstDispatching, List.find?_cons_of_neg (by simp [idle])]
  rfl

omit [DecidableEq ι] in
/-- Only lanes of the list are polled. -/
theorem mem_of_mem_polled {handle : ι} (member : handle ∈ polled lane newTokens handles)
    : handle ∈ handles := by
  rcases List.mem_append.mp member with inVain | first
  · exact List.takeWhile_sublist _ |>.subset inVain
  · exact List.mem_of_find?_eq_some (Option.mem_toList.mp first)

theorem CommandQueue.lane_setLane_of_ne (queue : CommandQueue ι) {handle other : ι}
    (different : other ≠ handle) (lane : CommandLane)
    : (queue.setLane handle lane).lane other = queue.lane other :=
  Function.update_of_ne different ..

/-- What polling distinct lanes does, by induction on them. -/
theorem pollLanes_spec (distinct : handles.Nodup)
    (same : ∀ handle ∈ handles, queue.lane handle = lane handle)
    : (queue.pollLanes newTokens handles).dispatched
        = (firstDispatching lane newTokens handles).bind (fun handle =>
            (lane handle).state.pending.head?.map (handle, ·))
      ∧ (queue.pollLanes newTokens handles).spent
        = (polled lane newTokens handles).filter
            (fun handle => (lane handle).spends (newTokens handle))
      ∧ (∀ other, (queue.pollLanes newTokens handles).queue.lane other
          = if other ∈ polled lane newTokens handles then
              ((lane other).poll (newTokens other)).1
            else queue.lane other) := by
  induction handles generalizing queue with
  | nil => exact ⟨rfl, rfl, fun _ => rfl⟩
  | cons handle rest ih =>
      obtain ⟨new, distinct⟩ := List.nodup_cons.mp distinct
      have own := same handle List.mem_cons_self
      by_cases dispatches : (lane handle).dispatches (newTokens handle) = true
      · obtain ⟨front, _⟩ := CommandLane.poll_of_dispatches dispatches
        obtain ⟨_, ready⟩ := Bool.and_eq_true_iff.mp dispatches
        obtain ⟨wrapper, head⟩ := CommandLane.exists_front ready
        have found : firstDispatching lane newTokens (handle :: rest) = some handle :=
          List.find?_cons_of_pos dispatches
        have onlyOne : polled lane newTokens (handle :: rest) = [handle] := by
          rw [polled, polledInVain, found, List.takeWhile_cons_of_neg (by simp [dispatches])]
          rfl
        simp only [found, onlyOne, CommandQueue.pollLanes, own, front, head]
        refine ⟨?_, ?_, ?_⟩
        · simp only [Option.bind_some, head, Option.map_some]
        · rw [List.filter_cons, List.filter_nil]
        · intro other
          by_cases same : other = handle
          · rw [same, if_pos List.mem_cons_self]
            exact CommandQueue.lane_setLane ..
          · rw [if_neg (by simpa using same)]
            exact CommandQueue.lane_setLane_of_ne _ same _
      · have idle := Bool.eq_false_iff.mpr dispatches
        have later := firstDispatching_cons rest idle
        have more : polled lane newTokens (handle :: rest)
            = handle :: polled lane newTokens rest := by
          rw [polled, polledInVain, later, List.takeWhile_cons_of_pos (by simp [idle])]
          rfl
        have nothing : ((lane handle).poll (newTokens handle)).2 = none := by
          rw [CommandLane.poll_of_not_dispatches idle]
        have kept : ∀ other ∈ rest,
            (queue.setLane handle ((lane handle).poll (newTokens handle)).1).lane other
              = lane other := by
          intro other member
          have different : other ≠ handle := by
            rintro rfl
            exact new member
          rw [CommandQueue.lane_setLane_of_ne _ different]
          exact same other (List.mem_cons_of_mem _ member)
        obtain ⟨dispatched, spent, lanes⟩ := ih distinct kept
        simp only [later, more, CommandQueue.pollLanes, own, nothing]
        refine ⟨dispatched, ?_, ?_⟩
        · simp only [spent, List.filter_cons]
          split <;> rfl
        · intro other
          rw [lanes other]
          by_cases isOwn : other = handle
          · subst isOwn
            have past : other ∉ polled lane newTokens rest :=
              fun member => new (mem_of_mem_polled member)
            rw [if_neg past, if_pos List.mem_cons_self, CommandQueue.lane_setLane]
          · by_cases member : other ∈ polled lane newTokens rest
            · rw [if_pos member, if_pos (List.mem_cons_of_mem _ member)]
            · rw [if_neg member, if_neg (by simp [isOwn, member]),
                CommandQueue.lane_setLane_of_ne _ isOwn]

end Polls

-----------------------------------------------------------------------------------------
-- Pressure and priorities
-----------------------------------------------------------------------------------------

namespace CommandLane

/-- The lane with its pressure flag changed. -/
def withPressure (lane : CommandLane) (isPressured : Bool) : CommandLane :=
  { lane with state := { lane.state with isPressured } }

variable (lane : CommandLane) (isPressured : Bool) (newTokens : Nat)

theorem checkPressure_eq : ∃ isPressured, lane.checkPressure.1 = lane.withPressure isPressured := by
  unfold checkPressure
  split
  · exact ⟨lane.state.isPressured, rfl⟩
  · simp only
    split
    · exact ⟨true, rfl⟩
    · split
      · exact ⟨false, rfl⟩
      · exact ⟨lane.state.isPressured, rfl⟩

@[simp] theorem withPressure_effectivePriority (now : DateTime)
    : (lane.withPressure isPressured).effectivePriority now = lane.effectivePriority now := rfl

@[simp] theorem withPressure_isReady
    : (lane.withPressure isPressured).isReady = lane.isReady := rfl

@[simp] theorem withPressure_spends
    : (lane.withPressure isPressured).spends newTokens = lane.spends newTokens := rfl

@[simp] theorem withPressure_tryAcquire
    : ((lane.withPressure isPressured).tryAcquire newTokens).2 = (lane.tryAcquire newTokens).2 := by
  unfold tryAcquire withPressure
  cases lane.rateLimiter <;> rfl

@[simp] theorem withPressure_dispatches
    : (lane.withPressure isPressured).dispatches newTokens = lane.dispatches newTokens := by
  rw [dispatches, dispatches, withPressure_tryAcquire, withPressure_isReady]

end CommandLane

section Ranks

variable (queue : CommandQueue ι)

/-- Checking the pressure of lanes changes their pressure flags only. -/
theorem checkPressures_lane (handles : List ι) (handle : ι)
    : ∃ isPressured,
        (queue.checkPressures handles).lane handle
          = (queue.lane handle).withPressure isPressured := by
  induction handles generalizing queue with
  | nil => exact ⟨(queue.lane handle).state.isPressured, rfl⟩
  | cons other rest ih =>
      obtain ⟨later, same⟩ := ih (queue.setLane other (queue.lane other).checkPressure.1)
      by_cases own : handle = other
      · subst own
        obtain ⟨_, first⟩ := (queue.lane handle).checkPressure_eq
        rw [CommandQueue.lane_setLane] at same
        refine ⟨later, same.trans ?_⟩
        rw [first]
        rfl
      · rw [CommandQueue.lane_setLane_of_ne _ own] at same
        exact ⟨later, same⟩

omit [DecidableEq ι] in
/-- The ranks are the priorities of the lanes, in their order. -/
theorem rankLanes_some {now : ι → DateTime} {handles : List ι} {ranked : List (Priority × ι)}
    (ranks : queue.rankLanes now handles = some ranked)
    : ranked.map Prod.snd = handles
      ∧ ∀ entry ∈ ranked, (queue.lane entry.2).effectivePriority (now entry.2) = some entry.1 := by
  induction handles generalizing ranked with
  | nil =>
      cases ranks
      exact ⟨rfl, fun _ member => absurd member List.not_mem_nil⟩
  | cons handle rest ih =>
      obtain ⟨priority, boosted, later⟩ := Option.bind_eq_some_iff.mp ranks
      obtain ⟨more, rest, same⟩ := Option.bind_eq_some_iff.mp later
      cases same
      obtain ⟨handles, entries⟩ := ih rest
      refine ⟨congrArg (handle :: ·) handles, ?_⟩
      intro entry member
      rcases List.mem_cons.mp member with rfl | member
      · exact boosted
      · exact entries entry member

omit [DecidableEq ι] in
variable {queue} in
theorem rankLanes_congr {other : CommandQueue ι} {now : ι → DateTime}
    (same
      : ∀ handle now,
          (other.lane handle).effectivePriority now = (queue.lane handle).effectivePriority now)
    (handles : List ι)
    : other.rankLanes now handles = queue.rankLanes now handles := by
  induction handles with
  | nil => rfl
  | cons handle rest ih => rw [CommandQueue.rankLanes, CommandQueue.rankLanes, same, ih]

omit [DecidableEq ι] in
/-- Ranking fails exactly when the priority of a lane does. -/
theorem rankLanes_none {now : ι → DateTime} {handles : List ι}
    : queue.rankLanes now handles = none
      ↔ ∃ handle ∈ handles, (queue.lane handle).effectivePriority (now handle) = none := by
  induction handles with
  | nil => simp [CommandQueue.rankLanes]
  | cons handle rest ih =>
      rw [CommandQueue.rankLanes]
      cases boosted : (queue.lane handle).effectivePriority (now handle) with
      | none => simp [boosted]
      | some priority =>
          cases ranks : queue.rankLanes now rest with
          | none =>
              obtain ⟨other, member, panics⟩ := ih.mp ranks
              simp only [Option.bind_eq_bind, Option.bind_some, Option.bind_none, true_iff]
              exact ⟨other, List.mem_cons_of_mem _ member, panics⟩
          | some ranked =>
              simp only [Option.bind_eq_bind, Option.bind_some, Option.pure_def, reduceCtorEq,
                false_iff]
              rintro ⟨other, member, panics⟩
              rcases List.mem_cons.mp member with rfl | member
              · rw [boosted] at panics
                cases panics
              · rw [ih.mpr ⟨other, member, panics⟩] at ranks
                cases ranks

end Ranks

-----------------------------------------------------------------------------------------
-- A whole tick
-----------------------------------------------------------------------------------------

section Ticks

variable {queue : CommandQueue ι} {readings : Readings ι}

/-- The priority that a tick computes for a lane. -/
def CommandQueue.rank (queue : CommandQueue ι) (readings : Readings ι) (handle : ι) : Priority :=
  ((queue.lane handle).effectivePriority (readings.now handle)).getD 0

/-- The lanes in the order in which a tick polls them: the least priority first, and lanes of
one priority as the map gives them.
-/
def CommandQueue.ranked (queue : CommandQueue ι) (readings : Readings ι) : List ι :=
  readings.order.insertionSort (fun left right =>
    queue.rank readings left ≤ queue.rank readings right)

/-- The priority of a lane panics. -/
def RankPanics (queue : CommandQueue ι) (readings : Readings ι) : Prop :=
  ∃ handle ∈ readings.order,
    (queue.lane handle).effectivePriority (readings.now handle) = none

/-- What a tick does whose priorities are all computed. -/
structure Dispatches (queue : CommandQueue ι) (readings : Readings ι) (tick : Tick ι) : Prop where
  dispatched
    : tick.dispatched
      = (firstDispatching queue.lane readings.newTokens (queue.ranked readings)).bind
          (fun handle => (queue.lane handle).state.pending.head?.map (handle, ·))
  spent
    : tick.spent
      = (polled queue.lane readings.newTokens (queue.ranked readings)).filter
          (fun handle => (queue.lane handle).spends (readings.newTokens handle))
  lanes
    : ∀ handle, ∃ isPressured,
        tick.queue.lane handle
        = if handle ∈ polled queue.lane readings.newTokens (queue.ranked readings) then
            (((queue.lane handle).withPressure isPressured).poll (readings.newTokens handle)).1
          else (queue.lane handle).withPressure isPressured

omit [DecidableEq ι] in
theorem ranked_perm : (queue.ranked readings).Perm readings.order := List.perm_insertionSort _ _

omit [DecidableEq ι] in
theorem ranked_sorted
    : (queue.ranked readings).Pairwise (fun left right =>
        queue.rank readings left ≤ queue.rank readings right) :=
  List.pairwise_insertionSort _ _

omit [DecidableEq ι] in
/-- A lane whose priority does not panic has it as its rank. -/
theorem rank_of_not_panics (ranks : ¬ RankPanics queue readings) {handle : ι}
    (member : handle ∈ readings.order)
    : (queue.lane handle).effectivePriority (readings.now handle)
      = some (queue.rank readings handle) := by
  rw [CommandQueue.rank]
  cases boosted : (queue.lane handle).effectivePriority (readings.now handle) with
  | none => exact absurd ⟨handle, member, boosted⟩ ranks
  | some priority => rfl

omit [DecidableEq ι] in
/-- Sorting the computed priorities ranks the lanes. -/
theorem ranked_of_rankLanes {entries : List (Priority × ι)}
    (ranks : queue.rankLanes readings.now readings.order = some entries)
    : (entries.insertionSort (fun left right => left.1 ≤ right.1)).map Prod.snd
      = queue.ranked readings := by
  obtain ⟨handles, priorities⟩ := rankLanes_some queue ranks
  have own : ∀ entry ∈ entries, queue.rank readings entry.2 = entry.1 := by
    intro entry member
    rw [CommandQueue.rank, priorities entry member]
    rfl
  rw [CommandQueue.ranked, ← handles]
  apply List.map_insertionSort
  intro left memberLeft right memberRight
  rw [own left memberLeft, own right memberRight]

/-- Polling lanes whose pressure flags have changed is polling the lanes. -/
theorem dispatches_pollLanes {checked : CommandQueue ι}
    (flags
      : ∀ handle, ∃ isPressured,
          checked.lane handle = (queue.lane handle).withPressure isPressured)
    (distinct : readings.order.Nodup)
    : Dispatches queue readings
        (checked.pollLanes readings.newTokens (queue.ranked readings)) := by
  have dispatching : ∀ handle newTokens,
      (checked.lane handle).dispatches newTokens = (queue.lane handle).dispatches newTokens := by
    intro handle newTokens
    obtain ⟨_, same⟩ := flags handle
    rw [same, CommandLane.withPressure_dispatches]
  have pending : ∀ handle,
      (checked.lane handle).state.pending = (queue.lane handle).state.pending := by
    intro handle
    obtain ⟨_, same⟩ := flags handle
    rw [same]
    rfl
  have spends : ∀ handle newTokens,
      (checked.lane handle).spends newTokens = (queue.lane handle).spends newTokens := by
    intro handle newTokens
    obtain ⟨_, same⟩ := flags handle
    rw [same, CommandLane.withPressure_spends]
  have first : firstDispatching checked.lane readings.newTokens (queue.ranked readings)
      = firstDispatching queue.lane readings.newTokens (queue.ranked readings) := by
    simp only [firstDispatching, dispatching]
  have all : polled checked.lane readings.newTokens (queue.ranked readings)
      = polled queue.lane readings.newTokens (queue.ranked readings) := by
    simp only [polled, polledInVain, first, dispatching]
  obtain ⟨dispatched, spent, lanes⟩ :=
    pollLanes_spec (ranked_perm.nodup_iff.mpr distinct) (fun handle _ => rfl)
  rw [first] at dispatched
  rw [all] at spent
  refine ⟨?_, ?_, ?_⟩
  · simpa only [pending] using dispatched
  · simpa only [spends] using spent
  · intro handle
    obtain ⟨isPressured, same⟩ := flags handle
    refine ⟨isPressured, ?_⟩
    rw [lanes handle, all, same]

/-- A tick whose priorities are computed polls the lanes in their order, and any other tick does
nothing.
-/
theorem scheduleNext_spec (distinct : readings.order.Nodup)
    : (RankPanics queue readings
        ∧ queue.scheduleNext readings
          = { queue := queue.checkPressures readings.order, panicked := true })
      ∨ (¬ RankPanics queue readings ∧ Dispatches queue readings (queue.scheduleNext readings)) := by
  have checked := checkPressures_lane queue readings.order
  have priorities : ∀ handle now,
      ((queue.checkPressures readings.order).lane handle).effectivePriority now
        = (queue.lane handle).effectivePriority now := by
    intro handle now
    obtain ⟨_, same⟩ := checked handle
    rw [same]
    rfl
  have ranking : (queue.checkPressures readings.order).rankLanes readings.now readings.order
      = queue.rankLanes readings.now readings.order :=
    rankLanes_congr priorities _
  rw [CommandQueue.scheduleNext, ranking]
  cases ranks : queue.rankLanes readings.now readings.order with
  | none => exact .inl ⟨(rankLanes_none _).mp ranks, rfl⟩
  | some entries =>
      refine .inr ⟨?_, ?_⟩
      · intro panics
        rw [(rankLanes_none _).mpr panics] at ranks
        cases ranks
      · simp only [ranked_of_rankLanes ranks]
        exact dispatches_pollLanes checked distinct

omit [DecidableEq ι] in
theorem not_dispatches_of_polledInVain {lane : ι → CommandLane} {newTokens : ι → Nat}
    {handles : List ι} {handle : ι} (member : handle ∈ polledInVain lane newTokens handles)
    : (lane handle).dispatches (newTokens handle) = false := by
  simpa using List.mem_takeWhile_imp member

/-- A poll that gives nothing leaves the lane's own data as they are. -/
theorem poll_state_of_not_dispatches {lane : CommandLane} {newTokens : Nat}
    (idle : lane.dispatches newTokens = false)
    : (lane.poll newTokens).1.state = lane.state := by
  rw [CommandLane.poll_of_not_dispatches idle, CommandLane.tryAcquire_state]

/-- The command that a tick dispatches was the front one of its lane, and no other command
leaves a lane; by cases on the lane.
-/
theorem Dispatches.pending {tick : Tick ι} (done : Dispatches queue readings tick) (handle : ι)
    : (queue.lane handle).state.pending
      = (tick.dispatched.toList.filter (fun entry => entry.1 = handle)).map Prod.snd
        ++ (tick.queue.lane handle).state.pending := by
  obtain ⟨isPressured, lane⟩ := done.lanes handle
  have idle : (queue.lane handle).dispatches (readings.newTokens handle) = false
      → (tick.queue.lane handle).state.pending = (queue.lane handle).state.pending := by
    intro idle
    rw [lane]
    split
    · rw [poll_state_of_not_dispatches (by rw [CommandLane.withPressure_dispatches, idle])]
      rfl
    · rfl
  rw [done.dispatched]
  cases first : firstDispatching queue.lane readings.newTokens (queue.ranked readings) with
  | none =>
      have unready : (tick.queue.lane handle).state.pending
          = (queue.lane handle).state.pending := by
        by_cases member : handle ∈ queue.ranked readings
        · exact idle (by simpa using List.find?_eq_none.mp first handle member)
        · rw [lane, if_neg (fun polled => member (mem_of_mem_polled polled))]
          rfl
      rw [unready]
      rfl
  | some other =>
      have dispatching : (queue.lane other).dispatches (readings.newTokens other) = true := by
        simpa using List.find?_some first
      obtain ⟨wrapper, front⟩ :=
        CommandLane.exists_front (Bool.and_eq_true_iff.mp dispatching).2
      rw [Option.bind_some, front]
      by_cases same : other = handle
      · subst same
        have member : other ∈ polled queue.lane readings.newTokens (queue.ranked readings) :=
          List.mem_append_right _ (by rw [first]; exact List.mem_cons_self)
        have taken := (@CommandLane.poll_of_dispatches
          ((queue.lane other).withPressure isPressured) (readings.newTokens other)
          (by rw [CommandLane.withPressure_dispatches, dispatching])).2
        rw [lane, if_pos member, taken]
        simpa [CommandLane.withPressure] using (List.cons_head?_tail front).symm
      · have unchanged : (tick.queue.lane handle).state.pending
            = (queue.lane handle).state.pending := by
          by_cases polls : handle ∈ polled queue.lane readings.newTokens (queue.ranked readings)
          · rcases List.mem_append.mp polls with inVain | own
            · exact idle (not_dispatches_of_polledInVain inVain)
            · rw [first] at own
              exact absurd (List.mem_singleton.mp own).symm same
          · rw [lane, if_neg polls]
            rfl
        simp [unchanged, same]

/-- Every tick takes at most the command that it dispatches. -/
theorem scheduleNext_pending (distinct : readings.order.Nodup) (handle : ι)
    : (queue.lane handle).state.pending
      = ((queue.scheduleNext readings).dispatched.toList.filter
            (fun entry => entry.1 = handle)).map Prod.snd
        ++ ((queue.scheduleNext readings).queue.lane handle).state.pending := by
  rcases scheduleNext_spec distinct with ⟨_, same⟩ | ⟨_, done⟩
  · obtain ⟨_, flag⟩ := checkPressures_lane queue readings.order handle
    rw [same, flag]
    rfl
  · exact done.pending handle

end Ticks

-----------------------------------------------------------------------------------------
-- Registered lanes
-----------------------------------------------------------------------------------------

/-- Whether the lane has a rate limiter. -/
def CommandLane.isLimited (lane : CommandLane) : Bool := lane.rateLimiter.isSome

theorem CommandLane.isLimited_tryAcquire (lane : CommandLane) (newTokens : Nat)
    : (lane.tryAcquire newTokens).1.isLimited = lane.isLimited := by
  rw [tryAcquire, isLimited, isLimited]
  cases limiter : lane.rateLimiter with
  | none => simp only [limiter]
  | some limiter => rfl

theorem CommandLane.isLimited_poll (lane : CommandLane) (newTokens : Nat)
    : (lane.poll newTokens).1.isLimited = lane.isLimited := by
  rw [poll, ← lane.isLimited_tryAcquire newTokens]
  split
  · rw [tryDequeue_eq]
    split <;> rfl
  · rfl

namespace CommandQueue

variable {queue : CommandQueue ι}

theorem lanes_checkPressures (queue : CommandQueue ι) (handles : List ι)
    : (queue.checkPressures handles).lanes = queue.lanes := by
  induction handles generalizing queue with
  | nil => rfl
  | cons handle rest ih => exact ih _

theorem lanes_pollLanes (queue : CommandQueue ι) (newTokens : ι → Nat) (handles : List ι)
    : (queue.pollLanes newTokens handles).queue.lanes = queue.lanes := by
  induction handles generalizing queue with
  | nil => rfl
  | cons handle rest ih =>
      rw [pollLanes]
      cases ((queue.lane handle).poll (newTokens handle)).2 with
      | none => exact ih _
      | some wrapper => rfl

/-- A tick registers no lanes. -/
theorem handles_scheduleNext (queue : CommandQueue ι) (readings : Readings ι)
    : (queue.scheduleNext readings).queue.handles = queue.handles := by
  have same : (queue.scheduleNext readings).queue.lanes = queue.lanes := by
    rw [scheduleNext]
    cases (queue.checkPressures readings.order).rankLanes readings.now readings.order with
    | none => exact lanes_checkPressures queue readings.order
    | some ranked =>
        exact (lanes_pollLanes _ _ _).trans (lanes_checkPressures queue readings.order)
  rw [handles, handles, same]

/-- A tick leaves the rate limiters where they are. -/
theorem isLimited_scheduleNext {readings : Readings ι} (distinct : readings.order.Nodup)
    (handle : ι)
    : ((queue.scheduleNext readings).queue.lane handle).isLimited
      = (queue.lane handle).isLimited := by
  rcases scheduleNext_spec distinct with ⟨_, same⟩ | ⟨_, done⟩
  · obtain ⟨_, flag⟩ := checkPressures_lane queue readings.order handle
    rw [same, flag]
    rfl
  · obtain ⟨_, lane⟩ := done.lanes handle
    rw [lane]
    split
    · rw [CommandLane.isLimited_poll]
      rfl
    · rfl

omit [DecidableEq ι] in
/-- Lanes that are registered under their own ids are registered once. -/
theorem handles_nodup
    (keyed : ∀ id handle, queue.lanes.lookup id = some handle → (queue.lane handle).id = id)
    : queue.handles.Nodup := by
  have own : ∀ entry ∈ queue.lanes.entries, (queue.lane entry.2).id = entry.1 :=
    fun entry member => keyed entry.1 entry.2 (AList.mem_lookup_iff.mpr member)
  refine List.Nodup.map_on ?_ (List.NodupKeys.nodup queue.lanes.nodupKeys)
  intro left memberLeft right memberRight same
  have keys : left.1 = right.1 := by
    rw [← own left memberLeft, ← own right memberRight, same]
  exact Sigma.ext keys (heq_of_eq same)

omit [DecidableEq ι] in
/-- Building a queue registers every lane under its own id, by induction on the lanes. -/
theorem build_spec (dlqSize : Option Nat) (storage : Bool)
    (laneConfigs : ι → LaneId × LaneConfig × Priority) (order : List ι)
    : (build dlqSize storage laneConfigs order).handles.Nodup
      ∧ ∀ handle,
          (build dlqSize storage laneConfigs order).lane handle
            = .new (laneConfigs handle).1 (laneConfigs handle).2.1 (laneConfigs handle).2.2
                storage := by
  have registered : ∀ (queue : CommandQueue ι),
      (∀ id handle, queue.lanes.lookup id = some handle → (queue.lane handle).id = id)
      → (order.foldl registerLane queue).lane = queue.lane
        ∧ ∀ id handle, (order.foldl registerLane queue).lanes.lookup id = some handle
          → ((order.foldl registerLane queue).lane handle).id = id := by
    induction order with
    | nil => exact fun _ keyed => ⟨rfl, keyed⟩
    | cons first rest ih =>
        intro queue keyed
        refine ih (queue.registerLane first) ?_
        intro id handle found
        by_cases same : id = (queue.lane first).id
        · subst same
          rw [registerLane, AList.lookup_insert] at found
          rw [← Option.some.inj found]
          rfl
        · rw [registerLane, AList.lookup_insert_ne same] at found
          exact keyed id handle found
  obtain ⟨lanes, keyed⟩ := registered
    (.new dlqSize
      (fun handle =>
        .new (laneConfigs handle).1 (laneConfigs handle).2.1 (laneConfigs handle).2.2 storage))
    (fun id handle found => by
      rw [new, AList.lookup_empty] at found
      cases found)
  exact ⟨handles_nodup keyed, fun handle => congrFun lanes handle⟩

end CommandQueue

end Lane
