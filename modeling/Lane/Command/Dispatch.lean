import Lane.Command.Tasks

/-! Dispatching in whole ticks: `schedule_next` and `try_dequeue` each as one step, and the runs in
which submissions, ticks, completions and retries take turns.
-/

namespace Lane

-----------------------------------------------------------------------------------------
-- One tick of the scheduler
-----------------------------------------------------------------------------------------

namespace CommandLane

/-- `try_dequeue` as one step: the rate limiter is asked first. -/
def poll (lane : CommandLane) (newTokens : Nat) : CommandLane × Option CommandWrapper :=
  if (lane.tryAcquire newTokens).2 then (lane.tryAcquire newTokens).1.tryDequeue
  else ((lane.tryAcquire newTokens).1, none)

/-- Whether a rate limiter hands out a token when the lane is polled. -/
def spends (lane : CommandLane) (newTokens : Nat) : Bool :=
  lane.rateLimiter.any (fun limiter => (limiter.tryAcquire newTokens).2)

end CommandLane

/-- What a tick reads from outside: the order in which the map gives its lanes, the times at
which their priorities are computed, and what the time since their last refill is worth.
-/
structure Readings (ι : Type) where
  order : List ι
  now : ι → DateTime
  newTokens : ι → Nat

/-- What a tick does: the queue it leaves, the lanes that have spent a token, and the command it
dispatches, if any; computing a priority may panic.
-/
structure Tick (ι : Type) where
  queue : CommandQueue ι
  spent : List ι := []
  dispatched : Option (ι × CommandWrapper) := none
  panicked : Bool := false

namespace CommandQueue

variable {ι : Type} [DecidableEq ι]

def checkPressures (queue : CommandQueue ι) : List ι → CommandQueue ι
  | [] => queue
  | handle :: rest =>
      (queue.setLane handle (queue.lane handle).checkPressure.1).checkPressures rest

def rankLanes (queue : CommandQueue ι) (now : ι → DateTime) : List ι → Option (List (Priority × ι))
  | [] => some []
  | handle :: rest => do
      let priority ← (queue.lane handle).effectivePriority (now handle)
      let ranked ← queue.rankLanes now rest
      return (priority, handle) :: ranked

/-- Polls the lanes until one of them gives a command. -/
def pollLanes (queue : CommandQueue ι) (newTokens : ι → Nat) : List ι → Tick ι
  | [] => { queue }
  | handle :: rest =>
      let lane := queue.lane handle
      let queue := queue.setLane handle (lane.poll (newTokens handle)).1
      let spent := if lane.spends (newTokens handle) then [handle] else []
      match (lane.poll (newTokens handle)).2 with
      | some wrapper => { queue, spent, dispatched := some (handle, wrapper) }
      | none =>
          let tick := queue.pollLanes newTokens rest
          { tick with spent := spent ++ tick.spent }

/-- `schedule_next`. -/
def scheduleNext (queue : CommandQueue ι) (readings : Readings ι) : Tick ι :=
  let queue := queue.checkPressures readings.order
  match queue.rankLanes readings.now readings.order with
  | none => { queue, panicked := true }
  | some ranked =>
      queue.pollLanes readings.newTokens
        ((ranked.insertionSort (fun left right => left.1 ≤ right.1)).map Prod.snd)

end CommandQueue

-----------------------------------------------------------------------------------------
-- Submissions, ticks, completions and retries
-----------------------------------------------------------------------------------------

/-- The queue between two steps: the executions that go on, the retries that wait for their
timers, the executions that have ended but still hold their place, and as a record the first
attempts in the order of their submission, the dispatched commands and the spent tokens.
-/
structure Dispatching (ι : Type) where
  queue : CommandQueue ι
  running : List (ι × CommandWrapper) := []
  delayed : List (ι × CommandWrapper) := []
  finishing : List ι := []
  enqueued : List (ι × CommandWrapper) := []
  dispatched : List (ι × CommandWrapper) := []
  spent : List ι := []

/-- The registered lanes. -/
def CommandQueue.handles {ι : Type} (queue : CommandQueue ι) : List ι :=
  queue.lanes.entries.map Sigma.snd

inductive DispatchMove (ι : Type) where
  | submit (handle : ι) (wrapper : CommandWrapper)
  | schedule (readings : Readings ι)
  | complete (handle : ι) (wrapper : CommandWrapper)
  | retry (handle : ι) (wrapper : CommandWrapper)
  | finish (handle : ι)
  | requeue (handle : ι) (wrapper : CommandWrapper)

namespace Dispatching

variable {ι : Type} [DecidableEq ι]

inductive Step : Dispatching ι → DispatchMove ι → Dispatching ι → Prop
  -- the last section of `enqueue_with_permit`
  | submit {s : Dispatching ι} {handle : ι} {wrapper : CommandWrapper}
    (registered : handle ∈ s.queue.handles) (first : wrapper.attempt = 0)
    : Step s (.submit handle wrapper)
        { s with
          queue := s.queue.setLane handle ((s.queue.lane handle).enqueue wrapper)
          enqueued := s.enqueued ++ [(handle, wrapper)] }
  -- `schedule_next`, with the lanes in any order
  | schedule {s : Dispatching ι} {readings : Readings ι}
    (order : readings.order.Perm s.queue.handles)
    : Step s (.schedule readings)
        { s with
          queue := (s.queue.scheduleNext readings).queue
          running := (s.queue.scheduleNext readings).dispatched.toList ++ s.running
          dispatched := s.dispatched ++ (s.queue.scheduleNext readings).dispatched.toList
          spent := s.spent ++ (s.queue.scheduleNext readings).spent }
  -- an execution succeeds, or fails for good
  | complete {s : Dispatching ι} {handle : ι} {wrapper : CommandWrapper}
    {before after : List (ι × CommandWrapper)}
    (running : s.running = before ++ (handle, wrapper) :: after)
    : Step s (.complete handle wrapper)
        { s with running := before ++ after, finishing := handle :: s.finishing }
  -- `retry_command`
  | retry {s : Dispatching ι} {handle : ι} {wrapper : CommandWrapper}
    {before after : List (ι × CommandWrapper)}
    (running : s.running = before ++ (handle, wrapper) :: after)
    (retries : wrapper.retryPolicy.shouldRetry wrapper.attempt = true)
    : Step s (.retry handle wrapper)
        { s with
          queue := s.queue.setLane handle (s.queue.lane handle).countRetry
          running := before ++ after
          delayed := (handle, { wrapper with attempt := wrapper.attempt + 1 }) :: s.delayed
          finishing := handle :: s.finishing }
  -- `mark_completed`
  | finish {s : Dispatching ι} {handle : ι} {before after : List ι}
    (finishing : s.finishing = before ++ handle :: after)
    : Step s (.finish handle)
        { s with
          queue := s.queue.setLane handle (s.queue.lane handle).markCompleted
          finishing := before ++ after }
  -- the timer of a retry fires
  | requeue {s : Dispatching ι} {handle : ι} {wrapper : CommandWrapper}
    {before after : List (ι × CommandWrapper)}
    (delayed : s.delayed = before ++ (handle, wrapper) :: after)
    : Step s (.requeue handle wrapper)
        { s with
          queue := s.queue.setLane handle ((s.queue.lane handle).requeue wrapper)
          delayed := before ++ after }

end Dispatching

/-- The command queue in whole ticks as a transition system. -/
def dispatchSystem (ι : Type) [DecidableEq ι]
    : LabelledSystem (Dispatching ι) (DispatchMove ι) where
  Step := Dispatching.Step

-----------------------------------------------------------------------------------------
-- Ticks as segments of the scheduler
-----------------------------------------------------------------------------------------

section Refinement

open TaskPool

variable {ι : Type} [DecidableEq ι] {queue : CommandQueue ι} {start : CommandPool ι}
  {shown : List (Observation ι)}

@[simp] theorem CommandQueue.lane_setLane (queue : CommandQueue ι) (handle : ι)
    (lane : CommandLane)
    : (queue.setLane handle lane).lane handle = lane :=
  Function.update_self ..

theorem CommandQueue.setLane_setLane (queue : CommandQueue ι) (handle : ι)
    (first second : CommandLane)
    : (queue.setLane handle first).setLane handle second = queue.setLane handle second := by
  simp only [setLane, Function.update_idem]

/-- How the scheduler goes on after a tick. -/
def Tick.tasks (tick : Tick ι) : List (Task ι) :=
  if tick.panicked then []
  else
    match tick.dispatched with
    | some (handle, wrapper) => [.dequeued handle wrapper]
    | none => [.scheduled]

/-- A scheduler that nobody disturbs checks the pressure of all lanes. -/
theorem reaches_ranking (lanes rest : List (LaneId × ι))
    (reaches
      : (commandSystem ι).Reaches start ⟨queue, ([.checking lanes rest] : List (Task ι)), shown⟩)
    : ∃ shown, (commandSystem ι).Reaches start
        ⟨queue.checkPressures (rest.map Prod.snd),
          ([.ranking (lanes.map Prod.snd) []] : List (Task ι)), shown⟩ := by
  induction rest generalizing queue shown with
  | nil => exact ⟨_, run_segment reaches .allChecked trivial⟩
  | cons entry rest ih => exact ih (run_segment reaches .checked trivial)

/-- It computes all priorities, unless one of them panics. -/
theorem reaches_ranked (now : ι → DateTime) (rest : List ι) (ranked : List (Priority × ι))
    (reaches
      : (commandSystem ι).Reaches start ⟨queue, ([.ranking rest ranked] : List (Task ι)), shown⟩)
    : ∃ shown, (commandSystem ι).Reaches start
        ⟨queue,
          ((queue.rankLanes now rest).toList.map (fun more => .ranking [] (ranked ++ more))
            : List (Task ι)), shown⟩ := by
  induction rest generalizing ranked shown with
  | nil => exact ⟨shown, by simpa [CommandQueue.rankLanes] using reaches⟩
  | cons handle rest ih =>
      cases boosted : (queue.lane handle).effectivePriority (now handle) with
      | none =>
          have panicked := run_segment reaches (.rankPanicked (now handle) boosted) trivial
          simp only [CommandQueue.rankLanes, boosted]
          exact ⟨_, panicked⟩
      | some priority =>
          obtain ⟨shown, onward⟩ := ih (ranked ++ [(priority, handle)])
            (run_segment reaches (.ranked (now handle) boosted) trivial)
          refine ⟨shown, ?_⟩
          simp only [CommandQueue.rankLanes, boosted]
          cases more : queue.rankLanes now rest with
          | none => simpa [more] using onward
          | some more => simpa [more] using onward

/-- It polls the lanes until one of them gives a command. -/
theorem reaches_polled (newTokens : ι → Nat) (rest : List ι)
    (reaches : (commandSystem ι).Reaches start ⟨queue, ([.polling rest] : List (Task ι)), shown⟩)
    : ∃ shown, (commandSystem ι).Reaches start
        ⟨(queue.pollLanes newTokens rest).queue, (queue.pollLanes newTokens rest).tasks, shown⟩ := by
  induction rest generalizing queue shown with
  | nil => exact ⟨_, run_segment reaches .allPolled trivial⟩
  | cons handle rest ih =>
      have onward : ∀ shown, ((queue.lane handle).poll (newTokens handle)).2 = none
          → (commandSystem ι).Reaches start
              ⟨queue.setLane handle ((queue.lane handle).poll (newTokens handle)).1,
                ([.polling rest] : List (Task ι)), shown⟩
          → ∃ shown, (commandSystem ι).Reaches start
              ⟨(queue.pollLanes newTokens (handle :: rest)).queue,
                (queue.pollLanes newTokens (handle :: rest)).tasks, shown⟩ := by
        intro shown nothing reaches
        obtain ⟨shown, later⟩ := ih reaches
        refine ⟨shown, ?_⟩
        simp only [CommandQueue.pollLanes, nothing]
        exact later
      cases acquired : ((queue.lane handle).tryAcquire (newTokens handle)).2 with
      | false =>
          have limited := run_segment reaches (.limited (newTokens handle) acquired) trivial
          have refused : (queue.lane handle).poll (newTokens handle)
              = (((queue.lane handle).tryAcquire (newTokens handle)).1, none) := by
            rw [CommandLane.poll, acquired, if_neg Bool.false_ne_true]
          rw [refused] at onward
          exact onward _ rfl limited
      | true =>
          have asked := run_segment reaches (.acquired (newTokens handle) acquired) trivial
          have polled : (queue.lane handle).poll (newTokens handle)
              = ((queue.lane handle).tryAcquire (newTokens handle)).1.tryDequeue := by
            rw [CommandLane.poll, acquired, if_pos rfl]
          cases front : ((queue.lane handle).tryAcquire (newTokens handle)).1.tryDequeue.2 with
          | none =>
              have nothing := run_segment asked
                (.nothingDequeued (by rw [CommandQueue.lane_setLane]; exact front)) trivial
              rw [CommandQueue.lane_setLane, CommandQueue.setLane_setLane] at nothing
              rw [polled] at onward
              exact onward _ front nothing
          | some wrapper =>
              have dequeued := run_segment asked
                (.dequeued (by rw [CommandQueue.lane_setLane]; exact front)) trivial
              rw [CommandQueue.lane_setLane, CommandQueue.setLane_setLane] at dequeued
              simp only [CommandQueue.pollLanes, polled, front]
              exact ⟨_, dequeued⟩

/-- A tick that nobody disturbs is a run of the scheduler's segments, with the lanes in the order
of the map.
-/
theorem reaches_scheduleNext (readings : Readings ι)
    (order : readings.order = queue.lanes.entries.map Sigma.snd)
    (reaches : (commandSystem ι).Reaches start ⟨queue, ([.schedule] : List (Task ι)), shown⟩)
    : ∃ shown, (commandSystem ι).Reaches start
        ⟨(queue.scheduleNext readings).queue, (queue.scheduleNext readings).tasks, shown⟩ := by
  have snapshot := run_segment reaches .snapshot trivial
  obtain ⟨shown, ranking⟩ := reaches_ranking _ _ snapshot
  have handles : (queue.lanes.entries.map (fun entry => (entry.1, entry.2))).map Prod.snd
      = readings.order := by
    rw [order, List.map_map]
    rfl
  rw [handles] at ranking
  obtain ⟨shown, ranked⟩ := reaches_ranked readings.now _ _ ranking
  rw [CommandQueue.scheduleNext]
  cases more : (queue.checkPressures readings.order).rankLanes readings.now readings.order with
  | none =>
      rw [more] at ranked
      exact ⟨shown, ranked⟩
  | some more' =>
      rw [more] at ranked
      have sorted := run_segment ranked .allRanked trivial
      exact reaches_polled readings.newTokens _ sorted

end Refinement

end Lane
