import Lane.Contract.CommandConservation
import Mathlib.Algebra.BigOperators.Pi
import Mathlib.Algebra.Order.BigOperators.Group.Finset
import Mathlib.Algebra.Order.Group.Multiset

/-! Lane capacity: along every run without panicking executions the active count of a lane is the
number of its executions that have not ended, and a queue without outstanding commands falls idle.
A panic takes a place of its lane for good.
-/

namespace Lane

variable {ι : Type} [DecidableEq ι]

-----------------------------------------------------------------------------------------
-- Delayed retries
-----------------------------------------------------------------------------------------

/-- The retry timers that a task runs, by lane. -/
def Task.delays : Task ι → ι → Nat
  | .backingOff handle _ => Pi.single handle 1
  | _ => 0

@[simp] theorem CommandLane.checkPressure_delayedRetries (lane : CommandLane)
    : lane.checkPressure.1.state.delayedRetries = lane.state.delayedRetries := by
  unfold checkPressure
  split
  · rfl
  · simp only
    split
    · rfl
    · split <;> rfl

@[simp] theorem CommandLane.tryDequeue_delayedRetries (lane : CommandLane)
    : lane.tryDequeue.1.state.delayedRetries = lane.state.delayedRetries := by
  unfold tryDequeue
  split <;> rfl

section Delays

variable {queue after : CommandQueue ι} {task : Task ι} {next : List (Task ι)}
  {shown : List (Observation ι)} {others : ι → Nat}

theorem CommandQueue.delayedRetries_setLane (queue : CommandQueue ι) (handle other : ι)
    (lane : CommandLane)
    : ((queue.setLane handle lane).lane other).state.delayedRetries
      = if other = handle then
          lane.state.delayedRetries
        else
          (queue.lane other).state.delayedRetries := by
  unfold setLane
  simp only [Function.update_apply]
  split <;> rfl

/-- Every segment keeps the delayed retries of a lane at the timers of the tasks, by cases on the
segment.
-/
theorem Segment.delays (segment : Segment queue task after next shown)
    (counted
      : ∀ handle, (queue.lane handle).state.delayedRetries = (task.delays + others) handle)
    : ∀ handle,
        (after.lane handle).state.delayedRetries
          = ((next.map Task.delays).sum + others) handle := by
  intro other
  have own := counted other
  cases segment with
  | refused refuses =>
      have same := queue.admitPermit_lane
      rw [refuses] at same
      rw [same.2]
      simpa [Task.delays] using own
  | accepted accepts =>
      have same := queue.admitPermit_lane
      rw [accepts] at same
      rw [same.2]
      simpa [Task.delays] using own
  | enqueued | checked | limited | acquired | nothingDequeued | dequeued =>
      rw [CommandQueue.delayedRetries_setLane]
      split
      · next same => simpa [same, Task.delays, CommandLane.enqueue] using own
      · simpa [Task.delays] using own
  | @delayed handle wrapper =>
      rw [CommandQueue.delayedRetries_setLane]
      by_cases same : other = handle
      · simp [same, Task.delays, CommandLane.countRetry] at own ⊢
        omega
      · simp [same, Task.delays] at own ⊢
        exact own
  | @finished handle permit =>
      have none
          : ((permit.toList.map (Task.dropping : WorkPermit → Task ι)).map Task.delays).sum
            = 0 := by
        cases permit <;> simp [Task.delays]
      rw [CommandQueue.delayedRetries_setLane, none]
      split
      · next same => simpa [same, Task.delays, CommandLane.markCompleted] using own
      · simpa [Task.delays] using own
  | @requeued handle wrapper =>
      rw [CommandQueue.delayedRetries_setLane]
      by_cases same : other = handle
      · simp [same, Task.delays, CommandLane.requeue] at own ⊢
        omega
      · simp [same, Task.delays] at own ⊢
        exact own
  | @outstanding caller | @laneBusy caller =>
      cases caller <;> simpa [Task.delays, Task.notIdle] using own
  | _ => simpa [Task.delays] using own

end Delays

-----------------------------------------------------------------------------------------
-- Every run
-----------------------------------------------------------------------------------------

/-- Among what is shown, the execution of a command has panicked. -/
def Panicked (shown : List (Observation ι)) : Prop :=
  ∃ serial, Observation.reached serial .panicked ∈ shown

section Panics

variable {queue after : CommandQueue ι} {task : Task ι} {next : List (Task ι)}
  {shown : List (Observation ι)}

/-- Only an execution shows that it has panicked, and nothing is left of it but its permit. -/
theorem Segment.of_panicked (segment : Segment queue task after next shown)
    (panicked : Panicked shown)
    : ∃ handle wrapper,
        task = .running handle wrapper
        ∧ after = queue
        ∧ next = [.dropping wrapper.workPermit] := by
  obtain ⟨serial, shows⟩ := panicked
  cases segment with
  | @panicked handle wrapper => exact ⟨handle, wrapper, rfl, rfl, rfl⟩
  | saved | unlettered | shutdown =>
      split at shows <;> simp at shows
  | completed | lettered =>
      rcases List.mem_append.mp shows with shows | shows
      · split at shows <;> simp at shows
      · simp at shows
  | @idle caller => cases caller <;> simp [Task.foundIdle] at shows
  | _ => simp at shows

/-- Every segment keeps the outstanding commands counted, also one that panics. -/
theorem Segment.counted [Fintype ι] {configs : ι → LaneConfig} {letters : Bool}
    {others : Held ι} (segment : Segment queue task after next shown)
    (sound : queue.Sound configs letters) (known : task.Sound configs)
    (counted
      : queue.lifecycle.outstanding = (queue.holds + task.holds letters + others).card)
    : after.lifecycle.outstanding = (after.holds + heldBy letters next + others).card := by
  by_cases panicked : Panicked shown
  · obtain ⟨handle, wrapper, rfl, rfl, rfl⟩ := segment.of_panicked panicked
    simpa [heldBy, Task.holds] using counted
  · have calm : ∀ serial, Observation.reached serial .panicked ∉ shown :=
      fun serial shows => panicked ⟨serial, shows⟩
    exact (segment.effect sound known calm).counted counted

end Panics

section Runs

variable {dlqSize : Option Nat} {storage : Bool}
  {laneConfigs : ι → LaneId × LaneConfig × Priority} {order : List ι} {pool : CommandPool ι}
  {allow : CommandPool ι → TaskPool.Move (Task ι) (Observation ι) → Prop}

/-- The delayed retries are the timers of the tasks along every run. -/
theorem delays_run
    (run
      : (commandSystem ι).Run allow
          (.start (CommandQueue.build dlqSize storage laneConfigs order)) pool)
    : ∀ handle,
        (pool.shared.lane handle).state.delayedRetries = pool.owned Task.delays handle := by
  refine TaskPool.owned_invariant Task.delays
    (fun queue _ owned => ∀ handle, (queue.lane handle).state.delayedRetries = owned handle) run
    ?_ ?_ ?_
  · intro handle
    rw [(CommandQueue.build_same dlqSize storage laneConfigs order).2.2 handle]
    rfl
  · intro task enters
    cases enters <;> rfl
  · intro before after task next shown others _ _ _ segment counted
    exact segment.delays counted

/-- The outstanding commands are the ones that lanes and tasks hold, along every run. -/
theorem counted_run [Fintype ι]
    (run
      : (commandSystem ι).Run allow
          (.start (CommandQueue.build dlqSize storage laneConfigs order)) pool)
    : pool.shared.lifecycle.outstanding
      = (CommandQueue.heldIn dlqSize.isSome pool).card := by
  refine TaskPool.owned_invariant (Task.holds dlqSize.isSome)
    (fun queue _ owned => queue.lifecycle.outstanding = (queue.holds + owned).card) run ?_ ?_ ?_
  · obtain ⟨lifecycle, _, state⟩ := CommandQueue.build_same dlqSize storage laneConfigs order
    have nothing : (CommandQueue.build dlqSize storage laneConfigs order).holds = 0 := by
      unfold CommandQueue.holds CommandLane.holds
      simp [state, LaneState.new]
    rw [nothing, lifecycle]
    rfl
  · intro task enters
    cases enters <;> rfl
  · intro before after task next shown others reached member _ segment counted
    obtain ⟨sound, known⟩ := sound_run reached
    rw [← add_assoc] at counted ⊢
    exact segment.counted sound (known task member) counted

/-- Along every run the active counts exceed the attempts of the tasks by the executions that
have panicked.
-/
theorem panics_run
    (run
      : (commandSystem ι).Run allow
          (.start (CommandQueue.build dlqSize storage laneConfigs order)) pool)
    : ∃ panics : ι → Nat,
        (∀ handle,
          (pool.shared.lane handle).state.active
            = pool.owned Task.attempts handle + panics handle)
        ∧ (Panicked pool.shown → panics ≠ 0) := by
  refine TaskPool.owned_invariant Task.attempts
    (fun queue shown owned =>
      ∃ panics : ι → Nat,
        (∀ handle, (queue.lane handle).state.active = owned handle + panics handle)
        ∧ (Panicked shown → panics ≠ 0)) run ?_ ?_ ?_
  · refine ⟨0, ?_, fun panicked => ?_⟩
    · intro handle
      rw [(CommandQueue.build_same dlqSize storage laneConfigs order).2.2 handle]
      rfl
    · obtain ⟨serial, shows⟩ := panicked
      cases shows
  · intro task enters
    cases enters <;> rfl
  · intro before after task next shown others _ _ _ segment counted
    obtain ⟨panics, active, leaks⟩ := counted
    by_cases panicked : Panicked shown
    · obtain ⟨handle, wrapper, rfl, rfl, rfl⟩ := segment.of_panicked panicked
      refine ⟨panics + Pi.single handle 1, ?_, ?_⟩
      · intro other
        rw [active other]
        simp [Task.attempts]
        omega
      · intro _ none
        have own := congrFun none handle
        simp at own
    · have calm : ∀ serial, Observation.reached serial .panicked ∉ shown :=
        fun serial shows => panicked ⟨serial, shows⟩
      have kept
          : ∀ handle,
              (after.lane handle).state.active
                = ((next.map Task.attempts).sum + (others + panics)) handle := by
        refine segment.active calm ?_
        intro handle
        rw [active handle]
        simp [add_assoc]
      refine ⟨panics, ?_, ?_⟩
      · intro handle
        rw [kept handle]
        simp [add_assoc]
      · rintro ⟨serial, shows⟩
        rcases List.mem_append.mp shows with earlier | now
        · exact leaks ⟨serial, earlier⟩
        · exact absurd now (calm serial)

omit [DecidableEq ι] in
theorem Panicked.append_left {shown : List (Observation ι)} (panicked : Panicked shown)
    (more : List (Observation ι))
    : Panicked (shown ++ more) := by
  obtain ⟨serial, shows⟩ := panicked
  exact ⟨serial, List.mem_append_left more shows⟩

/-- A run that has shown no panic is one without panics, by induction on it. -/
theorem calm_run {start : CommandPool ι} (run : (commandSystem ι).Run allow start pool)
    (quiet : ¬ Panicked pool.shown)
    : (commandSystem ι).Run (fun _ move => CalmMove move) start pool := by
  induction run with
  | refl => exact .refl _
  | tail before allowed step ih =>
      cases step with
      | @enter _ task enters => exact .tail (a := .enter task) (ih quiet) trivial (.enter enters)
      | run runs =>
          refine .tail (ih fun panicked => quiet (panicked.append_left _)) ?_ (.run runs)
          exact fun serial shows => quiet ⟨serial, List.mem_append_right _ shows⟩

-----------------------------------------------------------------------------------------
-- Nothing outstanding
-----------------------------------------------------------------------------------------

/-- Without outstanding commands no task holds one, and no lane has pending or delayed ones. -/
theorem nothing_held [Fintype ι]
    (run
      : (commandSystem ι).Run allow
          (.start (CommandQueue.build dlqSize storage laneConfigs order)) pool)
    (none : pool.shared.lifecycle.outstanding = 0)
    : (∀ task ∈ pool.tasks, task.holds dlqSize.isSome = 0)
      ∧ ∀ handle,
          (pool.shared.lane handle).state.pending = []
          ∧ (pool.shared.lane handle).state.delayedRetries = 0 := by
  have counted := counted_run run
  rw [none, eq_comm, Multiset.card_eq_zero, CommandQueue.heldIn, add_eq_zero] at counted
  obtain ⟨lanes, tasks⟩ := counted
  have free : ∀ task ∈ pool.tasks, task.holds dlqSize.isSome = 0 := by
    intro task member
    exact Multiset.sum_eq_zero_iff.mp tasks _ (Multiset.mem_map_of_mem _ member)
  refine ⟨free, ?_⟩
  intro handle
  constructor
  · have empty := Finset.sum_eq_zero_iff.mp lanes handle (Finset.mem_univ handle)
    simpa [CommandLane.holds] using empty
  · rw [delays_run run handle, TaskPool.owned]
    have idle : ∀ delays ∈ pool.tasks.map Task.delays, delays = 0 := by
      intro delays member
      obtain ⟨task, within, rfl⟩ := Multiset.mem_map.mp member
      have held := free task within
      cases task with
      | backingOff => simp [Task.holds] at held
      | _ => rfl
    rw [Multiset.sum_eq_zero idle]
    rfl

end Runs

-----------------------------------------------------------------------------------------
-- Winding down
-----------------------------------------------------------------------------------------

/-- A segment of a task that makes or finishes an attempt. -/
def ExecutionMove : TaskPool.Move (Task ι) (Observation ι) → Prop
  | .enter _ => False
  | .run task _ => task.attempts ≠ 0

/-- An attempt that holds no command has nothing left to do but to give its place back. -/
inductive Task.Winding : Task ι → Prop
  | retried (handle : ι) (laneId : LaneId) (commandId : CommandId) (attempt : Nat)
    : Winding (.retried handle laneId commandId attempt)
  | finishing (handle : ι) : Winding (.finishing handle none)

theorem Task.winding_of_attempts {task : Task ι} {letters : Bool} (attempts : task.attempts ≠ 0)
    (free : task.holds letters = 0)
    : task.Winding := by
  cases task with
  | retried handle laneId commandId attempt => exact .retried handle laneId commandId attempt
  | finishing handle permit =>
      cases permit with
      | none => exact .finishing handle
      | some permit => simp [Task.holds] at free
  | dequeued | running | completing | retrying | failing | failed => simp [Task.holds] at free
  | _ => exact absurd rfl attempts

theorem attempts_single_ne_zero (handle : ι) : (Pi.single handle 1 : ι → Nat) ≠ 0 := by
  intro none
  simpa using congrFun none handle

/-- The place of an attempt is given back. -/
theorem finishing_run (queue : CommandQueue ι) (rest : Multiset (Task ι))
    (before : List (Observation ι)) (handle : ι)
    : (commandSystem ι).Run (fun _ move => ExecutionMove move)
        ⟨queue, Task.finishing handle none ::ₘ rest, before⟩
        ⟨queue.setLane handle (queue.lane handle).markCompleted, rest, before⟩ := by
  have run : (commandSystem ι).Run (fun _ move => ExecutionMove move)
      ⟨queue, Task.finishing handle none ::ₘ rest, before⟩
      ⟨queue.setLane handle (queue.lane handle).markCompleted,
        (([] : List (Task ι)) : Multiset (Task ι)) + rest, before ++ []⟩ :=
    .single (a := .run (.finishing handle none) []) (attempts_single_ne_zero handle)
      (.run .finished)
  simpa using run

/-- The retry is announced. -/
theorem retried_run (queue : CommandQueue ι) (rest : Multiset (Task ι))
    (before : List (Observation ι)) (handle : ι) (laneId : LaneId) (commandId : CommandId)
    (attempt : Nat)
    : ∃ event,
        (commandSystem ι).Run (fun _ move => ExecutionMove move)
          ⟨queue, Task.retried handle laneId commandId attempt ::ₘ rest, before⟩
          ⟨queue, Task.finishing handle none ::ₘ rest, before ++ [.emitted event]⟩ := by
  have run : (commandSystem ι).Run (fun _ move => ExecutionMove move)
      ⟨queue, Task.retried handle laneId commandId attempt ::ₘ rest, before⟩ _ :=
    .single (a := .run (.retried handle laneId commandId attempt) _)
      (attempts_single_ne_zero handle) (.run .retried)
  exact ⟨_, run⟩

/-- Attempts that hold no commands give their places back, by induction on them. -/
theorem winding_run (queue : CommandQueue ι) (ending rest : Multiset (Task ι))
    (before : List (Observation ι)) (winds : ∀ task ∈ ending, task.Winding)
    : ∃ after more,
        (commandSystem ι).Run (fun _ move => ExecutionMove move)
          ⟨queue, ending + rest, before⟩ ⟨after, rest, before ++ more⟩
        ∧ after.lifecycle = queue.lifecycle
        ∧ ¬ Panicked more := by
  induction ending using Multiset.induction generalizing queue before with
  | empty =>
      refine ⟨queue, [], ?_, rfl, ?_⟩
      · rw [zero_add, List.append_nil]
        exact .refl _
      · rintro ⟨serial, shows⟩
        cases shows
  | cons task others ih =>
      rw [Multiset.cons_add]
      have later := fun other member => winds other (Multiset.mem_cons_of_mem member)
      cases winds task (Multiset.mem_cons_self task others) with
      | finishing handle =>
          obtain ⟨after, more, run, lifecycle, quiet⟩ := ih _ _ later
          exact ⟨after, more, (finishing_run _ _ _ handle).trans run, lifecycle, quiet⟩
      | retried handle laneId commandId attempt =>
          obtain ⟨event, announced⟩ :=
            retried_run queue (others + rest) before handle laneId commandId attempt
          obtain ⟨after, more, run, lifecycle, quiet⟩ :=
            @ih (queue.setLane handle (queue.lane handle).markCompleted)
              (before ++ [.emitted event]) later
          refine ⟨after, [.emitted event] ++ more, ?_, lifecycle, ?_⟩
          · rw [← List.append_assoc]
            exact (announced.trans (finishing_run _ _ _ handle)).trans run
          · rintro ⟨serial, shows⟩
            rcases List.mem_cons.mp shows with same | shows
            · cases same
            · exact quiet ⟨serial, shows⟩

-----------------------------------------------------------------------------------------
-- Capacity
-----------------------------------------------------------------------------------------

/-- The active count of a lane is given back for every execution that has ended: it is the number
of the others, a lane without any is free, and a queue without outstanding commands falls idle as
soon as they end.
-/
structure CapacitySurvives (pool : CommandPool ι) : Prop where
  active : ∀ handle, (pool.shared.lane handle).state.active = pool.owned Task.attempts handle
  free
    : ∀ handle,
        (∀ task ∈ pool.tasks, task.attempts handle = 0)
        → (pool.shared.lane handle).state.active = 0
  idle
    : pool.shared.lifecycle.outstanding = 0
      → ∃ later,
          (commandSystem ι).Run (fun _ move => ExecutionMove move) pool later
          ∧ later.shared.lifecycle.outstanding = 0
          ∧ ∀ handle, (later.shared.lane handle).isIdle = true

section Capacity

variable [Fintype ι] {dlqSize : Option Nat} {storage : Bool}
  {laneConfigs : ι → LaneId × LaneConfig × Priority} {order : List ι} {pool : CommandPool ι}
  {allow : CommandPool ι → TaskPool.Move (Task ι) (Observation ι) → Prop}

/-- A lane without active, pending and delayed commands is idle. -/
theorem CommandLane.isIdle_iff (lane : CommandLane)
    : lane.isIdle = true
      ↔ lane.state.pending = [] ∧ lane.state.active = 0 ∧ lane.state.delayedRetries = 0 := by
  simp [isIdle, and_assoc]

omit [Fintype ι] in
/-- Attempts that no task makes add up to none. -/
theorem owned_attempts_eq_zero {handle : ι}
    (none : ∀ task ∈ pool.tasks, task.attempts handle = 0)
    : pool.owned Task.attempts handle = 0 := by
  unfold TaskPool.owned
  rw [Pi.multiset_sum_apply, Multiset.map_map]
  exact Multiset.sum_eq_zero_iff.mpr fun attempts member => by
    obtain ⟨task, within, rfl⟩ := Multiset.mem_map.mp member
    exact none task within

/-- Without outstanding commands the executions under way have only to end, and then every lane
is idle.
-/
theorem falls_idle
    (run
      : (commandSystem ι).Run allow
          (.start (CommandQueue.build dlqSize storage laneConfigs order)) pool)
    (quiet : ¬ Panicked pool.shown) (nothing : pool.shared.lifecycle.outstanding = 0)
    : ∃ later,
        (commandSystem ι).Run (fun _ move => ExecutionMove move) pool later
        ∧ later.shared.lifecycle.outstanding = 0
        ∧ ∀ handle, (later.shared.lane handle).isIdle = true := by
  obtain ⟨held, _⟩ := nothing_held run nothing
  obtain ⟨queue, tasks, shown⟩ := pool
  have winds : ∀ task ∈ tasks.filter (fun task => task.attempts ≠ 0), task.Winding := by
    intro task member
    obtain ⟨within, attempts⟩ := Multiset.mem_filter.mp member
    exact Task.winding_of_attempts attempts (held task within)
  obtain ⟨after, more, winding, lifecycle, still⟩ :=
    winding_run queue _ (tasks.filter (fun task => ¬ task.attempts ≠ 0)) shown winds
  rw [Multiset.filter_add_not] at winding
  have done : after.lifecycle.outstanding = 0 := by rw [lifecycle, nothing]
  have calm := calm_run (run.reaches.trans winding.reaches) (by
    rintro ⟨serial, shows⟩
    rcases List.mem_append.mp shows with earlier | now
    · exact quiet ⟨serial, earlier⟩
    · exact still ⟨serial, now⟩)
  refine ⟨_, winding, done, ?_⟩
  intro handle
  obtain ⟨pending, delayed⟩ := (nothing_held calm done).2 handle
  refine (CommandLane.isIdle_iff _).mpr ⟨pending, ?_, delayed⟩
  rw [active_run calm handle]
  refine owned_attempts_eq_zero ?_
  intro task member
  have none := of_not_not (Multiset.mem_filter.mp member).2
  exact congrFun none handle

/-- Every execution's place is given back exactly as long as none has panicked. -/
theorem capacity_survives_iff
    (run
      : (commandSystem ι).Reaches
          (.start (CommandQueue.build dlqSize storage laneConfigs order)) pool)
    : CapacitySurvives pool ↔ ¬ Panicked pool.shown := by
  constructor
  · intro survives panicked
    obtain ⟨panics, active, leaks⟩ := panics_run run
    refine leaks panicked ?_
    funext handle
    have exceeds := active handle
    rw [survives.active handle] at exceeds
    simpa using exceeds
  · intro quiet
    have active := active_run (calm_run run quiet)
    refine ⟨active, ?_, falls_idle run quiet⟩
    intro handle none
    rw [active handle]
    exact owned_attempts_eq_zero none

end Capacity

-----------------------------------------------------------------------------------------
-- A command that panics
-----------------------------------------------------------------------------------------

section Example

/-- A run in which the one command of the lane is being executed. -/
theorem oneLane_running
    : ∃ queue wrapper shown,
        OneLaneRun ⟨queue, [Task.running () wrapper, .scheduled], shown⟩
        ∧ (queue.lane ()).state.active = 1
        ∧ ¬ Panicked shown := by
  have found : oneLane.lanes.lookup "lane" = some () := by decide +kernel
  have start : OneLaneRun ⟨oneLane, ([] : List (Task Unit)), []⟩ := .refl _
  have submitted := start.enter (.submit "lane" { commandType := "work" })
  have accepted := submitted.segment (.accepted rfl) (by simp)
  have located := accepted.segment (.located found) (by simp)
  have configured := located.segment .configured (by simp)
  have saved := configured.segment (.saved "first" 0) (by intro; split <;> simp)
  have enqueued := saved.segment .enqueued (by simp)
  have answered := enqueued.segment .submitted (by simp)
  have scheduling := answered.enter .schedule
  have snapshot := scheduling.segment .snapshot (by simp)
  have checked := snapshot.segment .checked (by simp)
  have allChecked := checked.segment .allChecked (by simp)
  have ranked := allChecked.segment (.ranked 0 rfl) (by simp)
  have allRanked := ranked.segment .allRanked (by simp)
  have acquired := allRanked.segment (.acquired 0 rfl) (by simp)
  have dequeued := acquired.segment (.dequeued rfl) (by simp)
  have started := dequeued.segment .started (by simp)
  refine ⟨_, _, _, started.swap, rfl, ?_⟩
  rintro ⟨serial, shows⟩
  simp [commandEvent] at shows

theorem capacity_survives_running
    : ∃ pool : CommandPool Unit,
        OneLaneRun pool ∧ (pool.shared.lane ()).state.active = 1 ∧ CapacitySurvives pool := by
  obtain ⟨queue, wrapper, shown, run, active, quiet⟩ := oneLane_running
  have reaches
      : (commandSystem Unit).Reaches
          (.start (.build (some 1) false (fun _ => ("lane", {}, 0)) [()])) _ :=
    run.reaches
  exact ⟨_, run, active, (capacity_survives_iff reaches).mpr quiet⟩

/-- The place of a command whose execution panics is not given back. -/
theorem capacity_lost_to_panic
    : ¬ ∀ pool : CommandPool Unit,
        (commandSystem Unit).Reaches (.start oneLane) pool → CapacitySurvives pool := by
  intro survives
  obtain ⟨queue, wrapper, shown, run, active, _⟩ := oneLane_running
  have panicked := TaskPool.run_segment run.reaches .panicked trivial
  have dropped := TaskPool.run_segment panicked .dropped trivial
  have free := (survives _ dropped).free ()
  have none : (queue.lane ()).state.active = 0 := free (by simp [Task.attempts])
  omega

end Example

end Lane
