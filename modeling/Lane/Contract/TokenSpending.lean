import Lane.Command.Ticks

/-! Token spending: a poll that gives no command spends a token unless none is left, so tokens and
dispatched commands agree exactly along the runs whose ticks poll no lane with a token in vain.
-/

namespace Lane

variable {ι : Type} [DecidableEq ι]

-----------------------------------------------------------------------------------------
-- What one poll spends
-----------------------------------------------------------------------------------------

namespace CommandLane

variable {lane : CommandLane} {limiter : TokenBucketLimiter} {newTokens : Nat}

theorem rateLimiter_poll (lane : CommandLane) (newTokens : Nat)
    : (lane.poll newTokens).1.rateLimiter = (lane.tryAcquire newTokens).1.rateLimiter := by
  rw [poll]
  by_cases acquired : (lane.tryAcquire newTokens).2 = true
  · rw [if_pos acquired, tryDequeue_eq]
    split <;> rfl
  · rw [if_neg acquired]

/-- A lane spends a token when one is left after the refill. -/
theorem spends_eq (limited : lane.rateLimiter = some limiter)
    : lane.spends newTokens = decide ((limiter.refill newTokens).tokens ≠ 0) := by
  rw [spends, limited, Option.any_some, TokenBucketLimiter.tryAcquire]
  by_cases empty : (limiter.refill newTokens).tokens = 0 <;> simp [empty]

/-- The rate limiter after a poll: the refill, less a token where one is spent. -/
theorem rateLimiter_poll_of_limited (limited : lane.rateLimiter = some limiter)
    : (lane.poll newTokens).1.rateLimiter
      = some { limiter.refill newTokens with
          tokens :=
            (limiter.refill newTokens).tokens - if lane.spends newTokens then 1 else 0 } := by
  rw [rateLimiter_poll, tryAcquire, limited, spends_eq limited]
  simp only [TokenBucketLimiter.tryAcquire]
  by_cases empty : (limiter.refill newTokens).tokens = 0
  · have spent : decide ((limiter.refill newTokens).tokens ≠ 0) = false := by simp [empty]
    rw [if_pos empty, spent, if_neg Bool.false_ne_true, Nat.sub_zero]
  · have spent : decide ((limiter.refill newTokens).tokens ≠ 0) = true := by simp [empty]
    rw [if_neg empty, spent, if_pos rfl]

/-- A limited lane that dispatches spends a token. -/
theorem spends_of_dispatches (limited : lane.isLimited = true)
    (dispatches : lane.dispatches newTokens = true)
    : lane.spends newTokens = true := by
  obtain ⟨limiter, limited⟩ := Option.isSome_iff_exists.mp limited
  obtain ⟨acquired, _⟩ := Bool.and_eq_true_iff.mp dispatches
  rw [tryAcquire, limited] at acquired
  rw [spends, limited]
  exact acquired

/-- Only limited lanes spend tokens. -/
theorem isLimited_of_spends (spends : lane.spends newTokens = true) : lane.isLimited = true := by
  rw [CommandLane.spends] at spends
  rw [isLimited]
  cases limited : lane.rateLimiter with
  | none =>
      rw [limited] at spends
      cases spends
  | some limiter => rfl

/-- A poll that gives no command leaves the refilled tokens as they are exactly when the lane
was ready, or had no token to spend.
-/
theorem keepsTokens_iff (limited : lane.rateLimiter = some limiter)
    : ((lane.poll newTokens).2 = none
        → (lane.poll newTokens).1.rateLimiter = some (limiter.refill newTokens))
      ↔ lane.isReady = true ∨ (limiter.refill newTokens).tokens = 0 := by
  have after := @rateLimiter_poll_of_limited _ _ newTokens limited
  rw [spends_eq limited] at after
  by_cases empty : (limiter.refill newTokens).tokens = 0
  · refine iff_of_true (fun _ => ?_) (.inr empty)
    have spent : decide ((limiter.refill newTokens).tokens ≠ 0) = false := by simp [empty]
    rw [after, spent, if_neg Bool.false_ne_true, Nat.sub_zero]
  · have acquired : (lane.tryAcquire newTokens).2 = true := by
      rw [tryAcquire, limited]
      simp [TokenBucketLimiter.tryAcquire, empty]
    have dispatches : lane.dispatches newTokens = lane.isReady := by
      rw [CommandLane.dispatches, acquired, Bool.true_and]
    by_cases ready : lane.isReady = true
    · refine iff_of_true (fun nothing => ?_) (.inl ready)
      obtain ⟨wrapper, front⟩ := exists_front ready
      rw [(poll_of_dispatches (dispatches.trans ready)).1, front] at nothing
      cases nothing
    · refine iff_of_false (fun keeps => ?_) (by simp [ready, empty])
      have idle : lane.dispatches newTokens = false := by
        rw [dispatches, Bool.eq_false_iff]
        exact ready
      have same := keeps (by rw [poll_of_not_dispatches idle])
      rw [after, Option.some.injEq] at same
      have tokens := congrArg TokenBucketLimiter.tokens same
      simp only [ne_eq, empty, not_false_eq_true, decide_true, if_true] at tokens
      omega

end CommandLane

-----------------------------------------------------------------------------------------
-- What one tick spends
-----------------------------------------------------------------------------------------

/-- The commands that were dispatched from the lane. -/
def dispatchedFrom (dispatched : List (ι × CommandWrapper)) (handle : ι)
    : List (ι × CommandWrapper) :=
  dispatched.filter (fun entry => entry.1 = handle)

/-- The tick spends in every limited lane a token for each command that it dispatches. -/
def SpendsOnDispatches (queue : CommandQueue ι) (tick : Tick ι) : Prop :=
  ∀ handle, (queue.lane handle).isLimited = true
    → tick.spent.count handle = (dispatchedFrom tick.dispatched.toList handle).length

/-- The lanes that the tick polls in vain have no token to spend. -/
def Thrifty (queue : CommandQueue ι) (readings : Readings ι) : Prop :=
  RankPanics queue readings
    ∨ ∀ handle ∈ polledInVain queue.lane readings.newTokens (queue.ranked readings),
        (queue.lane handle).spends (readings.newTokens handle) = false

section Ticks

variable {queue : CommandQueue ι} {readings : Readings ι}

/-- What a lane spends in a tick: a token if it dispatches, and one if it is polled in vain while
it has one.
-/
theorem Dispatches.count_spent {tick : Tick ι} (done : Dispatches queue readings tick)
    (distinct : readings.order.Nodup) {handle : ι}
    (limited : (queue.lane handle).isLimited = true)
    : tick.spent.count handle
      = (dispatchedFrom tick.dispatched.toList handle).length
        + if handle ∈ polledInVain queue.lane readings.newTokens (queue.ranked readings)
            ∧ (queue.lane handle).spends (readings.newTokens handle) = true then 1 else 0 := by
  have inVainDistinct :
      (polledInVain queue.lane readings.newTokens (queue.ranked readings)).Nodup :=
    (List.takeWhile_sublist _).nodup (ranked_perm.nodup_iff.mpr distinct)
  have inVain
      : ((polledInVain queue.lane readings.newTokens (queue.ranked readings)).filter
            (fun handle => (queue.lane handle).spends (readings.newTokens handle))).count handle
        = if handle ∈ polledInVain queue.lane readings.newTokens (queue.ranked readings)
            ∧ (queue.lane handle).spends (readings.newTokens handle) = true then 1 else 0 := by
    rw [(inVainDistinct.filter _).count]
    exact if_congr List.mem_filter rfl rfl
  rw [done.spent, polled, List.filter_append, List.count_append, inVain, Nat.add_comm,
    done.dispatched]
  congr 1
  cases first : firstDispatching queue.lane readings.newTokens (queue.ranked readings) with
  | none => rfl
  | some other =>
      have dispatching : (queue.lane other).dispatches (readings.newTokens other) = true := by
        simpa using List.find?_some first
      obtain ⟨wrapper, front⟩ :=
        CommandLane.exists_front (Bool.and_eq_true_iff.mp dispatching).2
      by_cases own : other = handle
      · subst own
        simp [front, dispatchedFrom, CommandLane.spends_of_dispatches limited dispatching]
      · simp only [Option.toList_some, Option.bind_some, front, Option.map_some, dispatchedFrom]
        rw [List.count_eq_zero_of_not_mem]
        · simp [own]
        · intro member
          exact own (List.mem_singleton.mp (List.mem_filter.mp member).1).symm

/-- A tick spends tokens on dispatches only exactly when it is thrifty. -/
theorem spendsOnDispatches_iff (distinct : readings.order.Nodup)
    : SpendsOnDispatches queue (queue.scheduleNext readings) ↔ Thrifty queue readings := by
  rcases scheduleNext_spec distinct with ⟨panics, same⟩ | ⟨ranks, done⟩
  · refine iff_of_true (fun handle _ => ?_) (.inl panics)
    rw [same]
    rfl
  · constructor
    · intro onDispatches
      refine .inr (fun handle inVain => ?_)
      by_contra spends
      have spends := Bool.eq_true_of_not_eq_false spends
      have limited := CommandLane.isLimited_of_spends spends
      have counted := done.count_spent distinct limited
      rw [onDispatches handle limited, if_pos ⟨inVain, spends⟩] at counted
      omega
    · intro thrifty handle limited
      have inVain := thrifty.resolve_left ranks handle
      have none : ¬ (handle ∈ polledInVain queue.lane readings.newTokens (queue.ranked readings)
          ∧ (queue.lane handle).spends (readings.newTokens handle) = true) := by
        rintro ⟨member, spends⟩
        rw [inVain member] at spends
        cases spends
      rw [done.count_spent distinct limited, if_neg none, Nat.add_zero]

end Ticks

-----------------------------------------------------------------------------------------
-- Runs
-----------------------------------------------------------------------------------------

/-- Ticks are thrifty, and all other steps are free. -/
def OnlyThrifty (s : Dispatching ι) : DispatchMove ι → Prop
  | .schedule readings => Thrifty s.queue readings
  | _ => True

/-- The registered lanes are distinct, and the limited ones have spent a token for each command
dispatched.
-/
structure TokensMatch (laneConfigs : ι → LaneId × LaneConfig × Priority) (s : Dispatching ι) : Prop
    where
  distinct : s.queue.handles.Nodup
  limited
    : ∀ handle, (s.queue.lane handle).isLimited = (laneConfigs handle).2.1.rateLimit.isSome
  matched
    : ∀ handle, (laneConfigs handle).2.1.rateLimit.isSome = true
      → s.spent.count handle = (dispatchedFrom s.dispatched handle).length

section Runs

variable {dlqSize : Option Nat} {storage : Bool}
  {laneConfigs : ι → LaneId × LaneConfig × Priority} {order : List ι} {s t : Dispatching ι}
  {move : DispatchMove ι}

/-- A thrifty step keeps the balance, by cases on the step. -/
theorem TokensMatch.step (matched : TokensMatch laneConfigs s) (thrifty : OnlyThrifty s move)
    (step : Dispatching.Step s move t)
    : TokensMatch laneConfigs t := by
  have lanes {handle : ι} {lane : CommandLane}
      (limited : lane.isLimited = (s.queue.lane handle).isLimited) (other : ι)
      : ((s.queue.setLane handle lane).lane other).isLimited
        = (laneConfigs other).2.1.rateLimit.isSome := by
    rw [← matched.limited other]
    by_cases same : other = handle
    · rw [same, CommandQueue.lane_setLane, limited]
    · rw [CommandQueue.lane_setLane_of_ne _ same]
  cases step with
  | submit registered first => exact ⟨matched.distinct, lanes rfl, matched.matched⟩
  | @schedule readings order =>
      have distinct := order.nodup_iff.mpr matched.distinct
      refine ⟨?_, fun handle => ?_, fun handle limited => ?_⟩
      · rw [CommandQueue.handles_scheduleNext]
        exact matched.distinct
      · rw [CommandQueue.isLimited_scheduleNext distinct]
        exact matched.limited handle
      · have tick := (spendsOnDispatches_iff distinct).mpr thrifty handle
          ((matched.limited handle).trans limited)
        rw [List.count_append, matched.matched handle limited, tick, ← List.length_append,
          dispatchedFrom, dispatchedFrom, dispatchedFrom, List.filter_append]
  | complete running => exact ⟨matched.distinct, matched.limited, matched.matched⟩
  | retry running retries => exact ⟨matched.distinct, lanes rfl, matched.matched⟩
  | finish finishing => exact ⟨matched.distinct, lanes rfl, matched.matched⟩
  | requeue delayed => exact ⟨matched.distinct, lanes rfl, matched.matched⟩

theorem tokensMatch_build
    : TokensMatch laneConfigs
        { queue := CommandQueue.build dlqSize storage laneConfigs order } := by
  obtain ⟨distinct, lanes⟩ := CommandQueue.build_spec dlqSize storage laneConfigs order
  refine ⟨distinct, fun handle => ?_, fun _ _ => rfl⟩
  rw [lanes handle, CommandLane.isLimited, CommandLane.new, Option.isSome_map]

/-- A poll that gives no command leaves the refilled tokens of the lane as they are exactly when
the lane was ready or had none; a tick spends tokens on dispatches only exactly when the lanes
that it polls in vain have none; and along the runs whose ticks are such, every limited lane has
spent as many tokens as it has dispatched commands.
-/
theorem tokens_spent_on_dispatches
    (run
      : (dispatchSystem ι).Run OnlyThrifty
          { queue := CommandQueue.build dlqSize storage laneConfigs order } s)
    : (∀ (lane : CommandLane) limiter newTokens, lane.rateLimiter = some limiter
        → (((lane.poll newTokens).2 = none
              → (lane.poll newTokens).1.rateLimiter = some (limiter.refill newTokens))
            ↔ lane.isReady = true ∨ (limiter.refill newTokens).tokens = 0))
      ∧ (∀ readings, readings.order.Perm s.queue.handles
        → (SpendsOnDispatches s.queue (s.queue.scheduleNext readings)
          ↔ Thrifty s.queue readings))
      ∧ ∀ handle, (laneConfigs handle).2.1.rateLimit.isSome = true
        → s.spent.count handle = (dispatchedFrom s.dispatched handle).length := by
  have matched : TokensMatch laneConfigs s :=
    run.invariant (TokensMatch laneConfigs) tokensMatch_build
      (fun kept thrifty step => kept.step thrifty step)
  refine ⟨fun _ _ _ limited => CommandLane.keepsTokens_iff limited, fun readings perm => ?_,
    matched.matched⟩
  exact spendsOnDispatches_iff (perm.nodup_iff.mpr matched.distinct)

end Runs

section Example

/-- A lane that may dispatch one command in a second. -/
def limitedLane : Unit → LaneId × LaneConfig × Priority :=
  fun _ => ("lane", { rateLimit := some (.perSecond 1) }, 0)

/-- A command for that lane. -/
def limitedCommand : CommandWrapper := newWrapper ⟨0⟩ "lane" ⟨"report"⟩ none .none "a" 0

/-- A tick that refills nothing. -/
def dryTick : Readings Unit := { order := [()], now := fun _ => 0, newTokens := fun _ => 0 }

/-- The queue of the limited lane. -/
def limitedQueue : CommandQueue Unit := CommandQueue.build none false limitedLane [()]

/-- The limited queue with the command. -/
def withLimitedCommand : Dispatching Unit :=
  { queue := limitedQueue.setLane () ((limitedQueue.lane ()).enqueue limitedCommand)
    enqueued := [((), limitedCommand)] }

/-- The limited queue after a tick. -/
def afterTick (s : Dispatching Unit) : Dispatching Unit :=
  { s with
    queue := (s.queue.scheduleNext dryTick).queue
    running := (s.queue.scheduleNext dryTick).dispatched.toList ++ s.running
    dispatched := s.dispatched ++ (s.queue.scheduleNext dryTick).dispatched.toList
    spent := s.spent ++ (s.queue.scheduleNext dryTick).spent }

theorem run_withLimitedCommand
    : (dispatchSystem Unit).Run OnlyThrifty { queue := limitedQueue }
        (afterTick withLimitedCommand) :=
  .trans (.single (a := .submit () limitedCommand) trivial (.submit List.mem_cons_self rfl))
    (.single (a := .schedule dryTick) (.inr (by decide)) (.schedule (by decide)))

/-- A command that waits when the lane is polled spends one token. -/
theorem tokens_spent_on_one_dispatch
    : (afterTick withLimitedCommand).spent.count ()
      = (dispatchedFrom (afterTick withLimitedCommand).dispatched ()).length :=
  (tokens_spent_on_dispatches run_withLimitedCommand).2.2 () rfl

/-- A tick on the idle lane spends its only token: no command is dispatched for it, and the
command that is submitted next finds none.
-/
theorem idle_tick_spends_token
    : (afterTick { queue := limitedQueue }).spent = [()]
      ∧ (afterTick { queue := limitedQueue }).dispatched = []
      ∧ (((limitedQueue.lane ()).poll 0).1.enqueue limitedCommand).isReady = true
      ∧ ((((limitedQueue.lane ()).poll 0).1.enqueue limitedCommand).poll 0).2 = none :=
  ⟨by decide, by decide, by decide, by decide⟩

end Example

end Lane
