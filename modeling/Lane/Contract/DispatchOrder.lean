import Lane.Command.Ticks

/-! Dispatch order: a tick dispatches the front command of a ready lane of the least priority, and
the first attempts of a lane leave it in the order of their submission.
-/

namespace Lane

variable {ι : Type} [DecidableEq ι]

-----------------------------------------------------------------------------------------
-- The lane that leads
-----------------------------------------------------------------------------------------

/-- The deadline of the front command is past the last representable time. -/
def CommandLane.Overflows (lane : CommandLane) : Prop :=
  ∃ booster front, lane.booster = some booster ∧ lane.state.pending.head? = some front
    ∧ booster.config.enabled = true
    ∧ maxDateTime
      < front.enqueueTime + (((durationFromStd booster.config.deadline).getD 0 : Duration) : Int)

/-- A priority panics exactly where the deadline of the front command overflows. -/
theorem CommandLane.effectivePriority_eq_none_iff (lane : CommandLane) (now : DateTime)
    : lane.effectivePriority now = none ↔ lane.Overflows := by
  unfold effectivePriority Overflows
  cases lane.booster with
  | none => simp
  | some booster =>
      cases lane.state.pending.head? with
      | none => simp
      | some front =>
          simp only [Option.some.injEq, exists_and_left, exists_eq_left']
          rw [PriorityBooster.calculatePriority, checkedAddSigned]
          by_cases enabled : booster.config.enabled = false
          · simp [enabled]
          · rw [if_neg enabled]
            by_cases late : front.enqueueTime
                + (((durationFromStd booster.config.deadline).getD 0 : Duration) : Int)
                  ≤ maxDateTime
            · rw [if_pos late]
              refine iff_of_false ?_ (fun overflows => absurd late (not_le.mpr overflows.2))
              simp only
              split <;> simp
            · rw [if_neg late]
              exact iff_of_true rfl ⟨by simpa using enabled, not_le.mp late⟩

/-- The lane is ready with this front command, and no ready lane is more urgent. -/
structure Leads (queue : CommandQueue ι) (readings : Readings ι) (handle : ι)
    (wrapper : CommandWrapper)
    : Prop where
  registered : handle ∈ queue.handles
  ready : (queue.lane handle).isReady = true
  front : (queue.lane handle).state.pending.head? = some wrapper
  urgent
    : ∀ other ∈ queue.handles, (queue.lane other).isReady = true
      → ∃ priority otherPriority,
          (queue.lane handle).effectivePriority (readings.now handle) = some priority
          ∧ (queue.lane other).effectivePriority (readings.now other) = some otherPriority
          ∧ priority ≤ otherPriority

section Ticks

variable {queue : CommandQueue ι} {readings : Readings ι}

/-- A ready lane without a rate limiter dispatches. -/
theorem CommandLane.dispatches_of_unlimited {lane : CommandLane} {newTokens : Nat}
    (unlimited : lane.isLimited = false)
    : lane.dispatches newTokens = lane.isReady := by
  rw [isLimited, Option.isSome_eq_false_iff, Option.isNone_iff_eq_none] at unlimited
  rw [dispatches, tryAcquire, unlimited]
  rfl

/-- A tick that ranks the lanes dispatches the leading command if some lane is ready. -/
theorem Dispatches.leads {tick : Tick ι} (done : Dispatches queue readings tick)
    (ranks : ¬ RankPanics queue readings) (order : readings.order.Perm queue.handles)
    (unlimited : ∀ handle ∈ queue.handles, (queue.lane handle).isLimited = false)
    (ready : ∃ handle ∈ queue.handles, (queue.lane handle).isReady = true)
    : ∃ handle wrapper,
        tick.dispatched = some (handle, wrapper) ∧ Leads queue readings handle wrapper := by
  have inRanked : ∀ {handle}, handle ∈ queue.ranked readings ↔ handle ∈ queue.handles :=
    (ranked_perm.trans order).mem_iff
  obtain ⟨lane, registered, laneReady⟩ := ready
  cases first : firstDispatching queue.lane readings.newTokens (queue.ranked readings) with
  | none =>
      have idle := List.find?_eq_none.mp first lane (inRanked.mpr registered)
      rw [CommandLane.dispatches_of_unlimited (unlimited lane registered), laneReady] at idle
      exact absurd rfl idle
  | some handle =>
      obtain ⟨dispatching, before, after, split, idle⟩ := List.find?_eq_some_iff_append.mp first
      have handleRegistered : handle ∈ queue.handles := by
        rw [← inRanked, split]
        exact List.mem_append_right _ List.mem_cons_self
      have handleReady : (queue.lane handle).isReady = true := by
        rw [← CommandLane.dispatches_of_unlimited (unlimited handle handleRegistered)]
        exact dispatching
      obtain ⟨wrapper, front⟩ := CommandLane.exists_front handleReady
      refine ⟨handle, wrapper, ?_, handleRegistered, handleReady, front, ?_⟩
      · rw [done.dispatched, first, Option.bind_some, front, Option.map_some]
      · intro other otherRegistered otherReady
        refine ⟨_, _, rank_of_not_panics ranks (order.mem_iff.mpr handleRegistered),
          rank_of_not_panics ranks (order.mem_iff.mpr otherRegistered), ?_⟩
        -- a lane that is ready cannot be among those polled in vain
        have later : other ∈ handle :: after := by
          have member := inRanked.mpr otherRegistered
          rw [split] at member
          rcases List.mem_append.mp member with earlier | later
          · have vain := idle other earlier
            rw [CommandLane.dispatches_of_unlimited (unlimited other otherRegistered), otherReady]
              at vain
            cases vain
          · exact later
        have sorted : (queue.ranked readings).Pairwise (fun left right =>
            queue.rank readings left ≤ queue.rank readings right) := ranked_sorted
        rw [split] at sorted
        rcases List.mem_cons.mp later with rfl | behind
        · exact le_rfl
        · exact (List.pairwise_cons.mp (List.pairwise_append.mp sorted).2.1).1 other behind

/-- A tick leads to the leading command, if some lane is ready, exactly when no priority
panics then.
-/
theorem scheduleNext_leads_iff (distinct : readings.order.Nodup)
    (order : readings.order.Perm queue.handles)
    (unlimited : ∀ handle ∈ queue.handles, (queue.lane handle).isLimited = false)
    : ((∃ handle ∈ queue.handles, (queue.lane handle).isReady = true)
        → ∃ handle wrapper,
            (queue.scheduleNext readings).dispatched = some (handle, wrapper)
            ∧ Leads queue readings handle wrapper)
      ↔ ((∃ handle ∈ queue.handles, (queue.lane handle).isReady = true)
        → ∀ handle ∈ queue.handles, ¬ (queue.lane handle).Overflows) := by
  have panics_iff : RankPanics queue readings
      ↔ ∃ handle ∈ queue.handles, (queue.lane handle).Overflows := by
    simp only [RankPanics, CommandLane.effectivePriority_eq_none_iff, order.mem_iff]
  rcases scheduleNext_spec distinct with ⟨panics, same⟩ | ⟨ranks, done⟩
  · obtain ⟨lane, registered, overflows⟩ := panics_iff.mp panics
    constructor
    · intro leads ready
      obtain ⟨handle, wrapper, dispatched, _⟩ := leads ready
      rw [same] at dispatched
      cases dispatched
    · intro calm ready
      exact absurd overflows (calm ready lane registered)
  · refine iff_of_true (done.leads ranks order unlimited) (fun _ handle member overflows => ?_)
    exact ranks (panics_iff.mpr ⟨handle, member, overflows⟩)

end Ticks

-----------------------------------------------------------------------------------------
-- Runs
-----------------------------------------------------------------------------------------

/-- The first attempts among the commands of a lane, in their order. -/
def firstAttempts (commands : List (ι × CommandWrapper)) (handle : ι) : List CommandWrapper :=
  ((commands.filter (fun entry => entry.1 = handle)).map Prod.snd).filter
    (fun wrapper => wrapper.attempt = 0)

/-- Every step keeps: the registered lanes are distinct and have no rate limiter, retries count
their attempts, and the first attempts of a lane are those dispatched and those that wait.
-/
structure FrontFirst (s : Dispatching ι) : Prop where
  distinct : s.queue.handles.Nodup
  unlimited : ∀ handle, (s.queue.lane handle).isLimited = false
  retried : ∀ entry ∈ s.delayed, entry.2.attempt ≠ 0
  ordered
    : ∀ handle,
        firstAttempts s.dispatched handle
          ++ (s.queue.lane handle).state.pending.filter (fun wrapper => wrapper.attempt = 0)
        = firstAttempts s.enqueued handle

section Steps

variable {commands more : List (ι × CommandWrapper)} {handle other : ι} {wrapper : CommandWrapper}
  {s t : Dispatching ι} {move : DispatchMove ι}

theorem firstAttempts_append
    : firstAttempts (commands ++ more) handle
      = firstAttempts commands handle ++ firstAttempts more handle := by
  rw [firstAttempts, List.filter_append, List.map_append, List.filter_append]
  rfl

/-- A step keeps the order of the first attempts, by cases on the step. -/
theorem FrontFirst.step (kept : FrontFirst s) (step : Dispatching.Step s move t) : FrontFirst t := by
  have lanes {handle : ι} {lane : CommandLane}
      (limited : lane.isLimited = (s.queue.lane handle).isLimited) (other : ι)
      : ((s.queue.setLane handle lane).lane other).isLimited = false := by
    by_cases same : other = handle
    · rw [same, CommandQueue.lane_setLane, limited]
      exact kept.unlimited handle
    · rw [CommandQueue.lane_setLane_of_ne _ same]
      exact kept.unlimited other
  have waiting {handle : ι} {lane : CommandLane}
      (same : lane.state.pending = (s.queue.lane handle).state.pending) (other : ι)
      : ((s.queue.setLane handle lane).lane other).state.pending
        = (s.queue.lane other).state.pending := by
    by_cases own : other = handle
    · rw [own, CommandQueue.lane_setLane, same]
    · rw [CommandQueue.lane_setLane_of_ne _ own]
  have pushed {handle : ι} {lane : CommandLane} {wrapper : CommandWrapper}
      (pushes : lane.state.pending = (s.queue.lane handle).state.pending ++ [wrapper]) (other : ι)
      : ((s.queue.setLane handle lane).lane other).state.pending
        = (s.queue.lane other).state.pending ++ if handle = other then [wrapper] else [] := by
    by_cases own : handle = other
    · rw [← own, CommandQueue.lane_setLane, pushes, if_pos rfl]
    · rw [CommandQueue.lane_setLane_of_ne _ (Ne.symm own), if_neg own, List.append_nil]
  cases step with
  | @submit handle wrapper registered first =>
      refine ⟨kept.distinct, lanes rfl, kept.retried, fun other => ?_⟩
      rw [pushed rfl, List.filter_append, ← List.append_assoc, kept.ordered other,
        firstAttempts_append]
      congr 1
      by_cases own : handle = other
      · simp [firstAttempts, own, first]
      · simp [firstAttempts, own]
  | @schedule readings order =>
      have distinct := order.nodup_iff.mpr kept.distinct
      refine ⟨?_, fun handle => ?_, kept.retried, fun handle => ?_⟩
      · rw [CommandQueue.handles_scheduleNext]
        exact kept.distinct
      · rw [CommandQueue.isLimited_scheduleNext distinct]
        exact kept.unlimited handle
      · have ordered := kept.ordered handle
        rw [scheduleNext_pending distinct handle, List.filter_append] at ordered
        rw [← ordered, firstAttempts_append, List.append_assoc]
        rfl
  | complete running => exact ⟨kept.distinct, kept.unlimited, kept.retried, kept.ordered⟩
  | @retry handle wrapper before after running retries =>
      have same := @waiting handle (s.queue.lane handle).countRetry rfl
      refine ⟨kept.distinct, lanes rfl, ?_, fun other => ?_⟩
      · intro entry member
        rcases List.mem_cons.mp member with rfl | member
        · exact Nat.succ_ne_zero _
        · exact kept.retried entry member
      · rw [same other]
        exact kept.ordered other
  | @finish handle before after finishing =>
      have same := @waiting handle (s.queue.lane handle).markCompleted rfl
      refine ⟨kept.distinct, lanes rfl, kept.retried, fun other => ?_⟩
      rw [same other]
      exact kept.ordered other
  | @requeue handle wrapper before after delayed =>
      have again : wrapper.attempt ≠ 0 := kept.retried (handle, wrapper) (by simp [delayed])
      refine ⟨kept.distinct, lanes rfl, ?_, fun other => ?_⟩
      · intro entry member
        apply kept.retried
        rw [delayed]
        rcases List.mem_append.mp member with earlier | later
        · exact List.mem_append_left _ earlier
        · exact List.mem_append_right _ (List.mem_cons_of_mem _ later)
      · rw [pushed rfl, List.filter_append, ← List.append_assoc, kept.ordered other]
        by_cases own : handle = other
        · simp [own, again]
        · simp [own]

end Steps

-----------------------------------------------------------------------------------------
-- The contract
-----------------------------------------------------------------------------------------

section Runs

variable {dlqSize : Option Nat} {storage : Bool}
  {laneConfigs : ι → LaneId × LaneConfig × Priority} {order : List ι} {s : Dispatching ι}

theorem frontFirst_build (unlimited : ∀ handle, (laneConfigs handle).2.1.rateLimit = none)
    : FrontFirst { queue := CommandQueue.build dlqSize storage laneConfigs order } := by
  obtain ⟨distinct, lanes⟩ := CommandQueue.build_spec dlqSize storage laneConfigs order
  refine ⟨distinct, fun handle => ?_, fun _ member => absurd member List.not_mem_nil,
    fun handle => ?_⟩
  · rw [lanes handle, CommandLane.isLimited, CommandLane.new, unlimited handle]
    rfl
  · rw [lanes handle]
    rfl

/-- Along every run of a queue without rate limiters the first attempts of a lane are dispatched
in the order of their submission. A tick takes no command but the one that it dispatches, and
where some lane is ready it dispatches the front command of a ready lane of the least priority,
exactly when no deadline of a front command overflows then.
-/
theorem dispatch_order (unlimited : ∀ handle, (laneConfigs handle).2.1.rateLimit = none)
    (reached
      : (dispatchSystem ι).Reaches
          { queue := CommandQueue.build dlqSize storage laneConfigs order } s)
    : (∀ handle,
        firstAttempts s.dispatched handle
            ++ (s.queue.lane handle).state.pending.filter (fun wrapper => wrapper.attempt = 0)
          = firstAttempts s.enqueued handle)
      ∧ ∀ readings : Readings ι, readings.order.Perm s.queue.handles
        → (∀ handle,
            (s.queue.lane handle).state.pending
              = ((s.queue.scheduleNext readings).dispatched.toList.filter
                    (fun entry => entry.1 = handle)).map Prod.snd
                ++ ((s.queue.scheduleNext readings).queue.lane handle).state.pending)
          ∧ (((∃ handle ∈ s.queue.handles, (s.queue.lane handle).isReady = true)
              → ∃ handle wrapper,
                  (s.queue.scheduleNext readings).dispatched = some (handle, wrapper)
                  ∧ Leads s.queue readings handle wrapper)
            ↔ ((∃ handle ∈ s.queue.handles, (s.queue.lane handle).isReady = true)
              → ∀ handle ∈ s.queue.handles, ¬ (s.queue.lane handle).Overflows)) := by
  have kept : FrontFirst s :=
    reached.invariant FrontFirst (frontFirst_build unlimited) (fun holds _ step => holds.step step)
  refine ⟨kept.ordered, fun readings perm => ?_⟩
  have distinct := perm.nodup_iff.mpr kept.distinct
  exact ⟨scheduleNext_pending distinct,
    scheduleNext_leads_iff distinct perm (fun handle _ => kept.unlimited handle)⟩

end Runs

section Example

/-- A lane whose commands are boosted towards a deadline. -/
def boostedLane (deadline : Duration) : Unit → LaneId × LaneConfig × Priority :=
  fun _ => ("lane", { priorityBoost := some (.new deadline) }, 0)

/-- A command that was submitted at the epoch. -/
def epochCommand : CommandWrapper :=
  newWrapper ⟨0⟩ "lane" ⟨"report"⟩ none .none "a" 0

/-- The queue of the boosted lane with that command. -/
def withCommand (deadline : Duration) : Dispatching Unit :=
  { queue :=
      (CommandQueue.build none false (boostedLane deadline) [()]).setLane ()
        (((CommandQueue.build none false (boostedLane deadline) [()]).lane ()).enqueue epochCommand)
    enqueued := [((), epochCommand)] }

theorem reaches_withCommand (deadline : Duration)
    : (dispatchSystem Unit).Reaches
        { queue := CommandQueue.build none false (boostedLane deadline) [()] }
        (withCommand deadline) :=
  .single (a := .submit () epochCommand) trivial (.submit List.mem_cons_self rfl)

/-- A tick that reads the epoch for every lane. -/
def epochTick : Readings Unit := { order := [()], now := fun _ => 0, newTokens := fun _ => 0 }

/-- A command with a deadline after one minute is dispatched. -/
theorem dispatch_order_minute
    : ∃ handle wrapper,
        ((withCommand 60000000000).queue.scheduleNext epochTick).dispatched = some (handle, wrapper)
        ∧ Leads (withCommand 60000000000).queue epochTick handle wrapper :=
  ((dispatch_order (fun _ => rfl) (reaches_withCommand 60000000000)).2 epochTick (by decide)).2.mpr
    (fun _ _ _ => by
      rw [← CommandLane.effectivePriority_eq_none_iff _ 0]
      decide +revert)
    ⟨(), by decide, by decide⟩

/-- A deadline of ten trillion seconds makes every tick panic: the lane is ready, and nothing is
dispatched.
-/
theorem far_deadline_blocks_dispatch
    : (∃ handle ∈ (withCommand 10000000000000000000000).queue.handles,
        ((withCommand 10000000000000000000000).queue.lane handle).isReady = true)
      ∧ ((withCommand 10000000000000000000000).queue.scheduleNext epochTick).dispatched = none
      ∧ ((withCommand 10000000000000000000000).queue.scheduleNext epochTick).panicked = true :=
  ⟨⟨(), by decide, by decide⟩, by decide, by decide⟩

end Example

end Lane
