import Lane.Command.Effects

/-! Conservation of commands: an accepted command is in one place at a time until its result is
sent once, within its retries, and the counters of the queue count what is there.
-/

namespace Lane

variable {ι : Type}

-----------------------------------------------------------------------------------------
-- Balance of the holdings and the courses
-----------------------------------------------------------------------------------------

theorem milestones_append (shown more : List (Observation ι)) (serial : Nat)
    : milestones (shown ++ more) serial = milestones shown serial ++ milestones more serial := by
  simp [milestones, reachedIn_append]

/-- Every command is held the way its course says, and the outstanding ones are counted. -/
structure Balanced (maxRetries : ι → Nat) (letters : Bool) (held : Held ι)
    (lifecycle : QueueLifecycle) (shown : List (Observation ι))
    : Prop where
  courses
    : ∀ serial,
        ∃ course,
          Course.Follows maxRetries letters (milestones shown serial) course
          ∧ Held.of held serial = course.holding.elim 0 singleton
          ∧ (course = .unborn ↔ lifecycle.admitted ≤ serial)
  outstanding : lifecycle.outstanding = held.card

section Balance

variable {maxRetries : ι → Nat} {letters : Bool} {held later others : Held ι}
  {lifecycle after : QueueLifecycle} {shown more : List (Observation ι)}

/-- A command that is held one way is held no other way. -/
theorem holding_of_split {holding : Holding ι} {rest : Multiset (Holding ι)} {course : Course ι}
    (split : rest + {holding} = course.holding.elim 0 singleton)
    : rest = 0 ∧ course.holding = some holding := by
  have cards := congrArg Multiset.card split
  cases known : course.holding with
  | none =>
      rw [known] at cards
      simp at cards
  | some other =>
      rw [known] at split cards
      simp only [Option.elim_some, Multiset.card_add, Multiset.card_singleton] at cards
      obtain rfl := Multiset.card_eq_zero.mp (show rest.card = 0 by omega)
      simp only [zero_add, Option.elim_some, Multiset.singleton_inj] at split
      exact ⟨rfl, by rw [split]⟩

/-- One milestone is one of its command and of no other. -/
theorem milestones_one {serial : Nat} {milestone : Milestone ι}
    (known : reachedIn more = [(serial, milestone)]) (other : Nat)
    : milestones more other = if serial = other then [milestone] else [] := by
  unfold milestones
  rw [known]
  by_cases same : serial = other <;> simp [same]

/-- The holdings of a command beside one more entry. -/
theorem Held.of_beside (held others : Held ι) (serial : Nat) (holding : Holding ι)
    (other : Nat)
    : Held.of (held + {(serial, holding)} + others) other
      = Held.of (held + others) other + if serial = other then {holding} else 0 := by
  rw [Held.of_add, Held.of_add, Held.of_add]
  by_cases same : serial = other
  · rw [if_pos same, ← same, Held.of_singleton_self]
    abel
  · rw [if_neg same, Held.of_singleton_ne (Ne.symm same)]
    abel

/-- An effect keeps the outstanding commands counted, by cases on the effect. -/
theorem Effect.counted {reached : List (Nat × Milestone ι)}
    (effect : Effect maxRetries letters held later lifecycle after reached)
    (counted : lifecycle.outstanding = (held + others).card)
    : after.outstanding = (later + others).card := by
  cases effect with
  | quiet same outstanding admitted => rw [same, outstanding, counted]
  | accepts added outstanding admitted =>
      rw [added, outstanding, counted]
      simp only [Multiset.card_add, Multiset.card_singleton]
      omega
  | passes was becomes next outstanding admitted =>
      rw [becomes, outstanding, counted, was]
      simp only [Multiset.card_add, Multiset.card_singleton]
  | drops was outstanding admitted =>
      rw [was] at counted
      simp only [Multiset.card_add, Multiset.card_singleton] at counted ⊢
      rw [outstanding (by omega)]
      omega

/-- An effect keeps the balance, whatever the other tasks hold, by cases on the effect. -/
theorem Effect.balanced
    (effect : Effect maxRetries letters held later lifecycle after (reachedIn more))
    (balanced : Balanced maxRetries letters (held + others) lifecycle shown)
    : Balanced maxRetries letters (later + others) after (shown ++ more) := by
  refine ⟨?_, effect.counted balanced.outstanding⟩
  generalize known : reachedIn more = reached at effect
  cases effect with
  | quiet same outstanding admitted =>
      have silent (serial : Nat) : milestones more serial = [] := by simp [milestones, known]
      intro serial
      rw [same, admitted, milestones_append, silent, List.append_nil]
      exact balanced.courses serial
  | accepts added outstanding admitted =>
      intro serial
      obtain ⟨course, follows, isHeld, unborn⟩ := balanced.courses serial
      rw [added, admitted, Held.of_beside, milestones_append, milestones_one known]
      by_cases new : lifecycle.admitted = serial
      · rw [if_pos new, if_pos new]
        obtain rfl := unborn.mpr (le_of_eq new)
        refine ⟨.enqueuing, follows.next .accepted, ?_, ?_⟩
        · rw [isHeld]
          rfl
        · simp [new]
      · rw [if_neg new, if_neg new, List.append_nil, add_zero]
        refine ⟨course, follows, isHeld, unborn.trans ?_⟩
        omega
  | @passes serial milestone holding moved kept was becomes next outstanding admitted =>
      intro other
      obtain ⟨course, follows, isHeld, unborn⟩ := balanced.courses other
      rw [becomes, admitted, Held.of_beside, milestones_append, milestones_one known]
      rw [was, Held.of_beside] at isHeld
      by_cases own : serial = other
      · rw [if_pos own] at isHeld ⊢
        rw [if_pos own]
        obtain ⟨alone, holds⟩ := holding_of_split isHeld
        obtain ⟨further, step, moves⟩ := next course holds
        refine ⟨further, follows.next step, ?_, ?_⟩
        · rw [alone, moves]
          rfl
        · rw [← unborn]
          constructor
          · rintro rfl
            cases moves
          · rintro rfl
            cases holds
      · rw [if_neg own] at isHeld ⊢
        rw [if_neg own, List.append_nil]
        exact ⟨course, follows, isHeld, unborn⟩
  | @drops serial was outstanding admitted =>
      intro other
      obtain ⟨course, follows, isHeld, unborn⟩ := balanced.courses other
      rw [admitted, milestones_append, milestones_one known]
      rw [was, Held.of_beside] at isHeld
      by_cases own : serial = other
      · rw [if_pos own] at isHeld ⊢
        obtain ⟨alone, holds⟩ := holding_of_split isHeld
        cases course with
        | ended ending =>
            refine ⟨.dropped ending, follows.next (.dropped ending), alone, ?_⟩
            rw [← unborn]
            constructor <;> intro same <;> cases same
        | _ => cases holds
      · rw [if_neg own, add_zero] at isHeld
        rw [if_neg own, List.append_nil]
        exact ⟨course, follows, isHeld, unborn⟩

end Balance

-----------------------------------------------------------------------------------------
-- Active attempts
-----------------------------------------------------------------------------------------

/-- The attempts that a task makes or finishes, by lane. -/
def Task.attempts [DecidableEq ι] : Task ι → ι → Nat
  | .dequeued handle _ | .running handle _ | .completing handle _ _ | .retrying handle _
  | .retried handle _ _ _ | .failing handle _ _ | .failed handle _ _ | .finishing handle _ =>
      Pi.single handle 1
  | _ => 0

section Attempts

variable [DecidableEq ι] {queue after : CommandQueue ι} {task : Task ι} {next : List (Task ι)}
  {shown : List (Observation ι)} {others : ι → Nat}

theorem CommandQueue.active_setLane (queue : CommandQueue ι) (handle other : ι)
    (lane : CommandLane)
    : ((queue.setLane handle lane).lane other).state.active
      = if other = handle then lane.state.active else (queue.lane other).state.active := by
  unfold setLane
  simp only [Function.update_apply]
  split <;> rfl

/-- A segment that does not panic keeps the active count of every lane at the attempts of the
tasks, by cases on the segment.
-/
theorem Segment.active (segment : Segment queue task after next shown)
    (calm : ∀ serial, Observation.reached serial .panicked ∉ shown)
    (counted : ∀ handle, (queue.lane handle).state.active = (task.attempts + others) handle)
    : ∀ handle,
        (after.lane handle).state.active
          = ((next.map Task.attempts).sum + others) handle := by
  intro other
  have own := counted other
  cases segment with
  | refused refuses =>
      have same := queue.admitPermit_lane
      rw [refuses] at same
      rw [same.2]
      simpa [Task.attempts] using own
  | accepted accepts =>
      have same := queue.admitPermit_lane
      rw [accepts] at same
      rw [same.2]
      simpa [Task.attempts] using own
  | enqueued | requeued =>
      rw [CommandQueue.active_setLane]
      split
      · next same => simpa [same, Task.attempts] using own
      · simpa [Task.attempts] using own
  | checked | limited | acquired =>
      rw [CommandQueue.active_setLane]
      split
      · next same => simpa [same, Task.attempts] using own
      · simpa [Task.attempts] using own
  | nothingDequeued nothing =>
      rw [CommandQueue.active_setLane, CommandLane.tryDequeue_none nothing]
      split
      · next same => simpa [same, Task.attempts] using own
      · simpa [Task.attempts] using own
  | @dequeued handle _ wrapper front =>
      rw [CommandQueue.active_setLane, (CommandLane.tryDequeue_some front).2.2.1]
      by_cases same : other = handle
      · simp [same, Task.attempts] at own ⊢
        omega
      · simp [same, Task.attempts] at own ⊢
        exact own
  | panicked => exact absurd (List.mem_singleton.mpr rfl) (calm _)
  | @delayed handle wrapper =>
      rw [CommandQueue.active_setLane]
      split
      · next same => simpa [same, Task.attempts] using own
      · simpa [Task.attempts] using own
  | @finished handle permit =>
      have none
          : ((permit.toList.map (Task.dropping : WorkPermit → Task ι)).map Task.attempts).sum
            = 0 := by
        cases permit <;> simp [Task.attempts]
      rw [CommandQueue.active_setLane, none]
      by_cases same : other = handle
      · simp [same, Task.attempts, CommandLane.markCompleted] at own ⊢
        omega
      · simp [same, Task.attempts] at own ⊢
        exact own
  | @outstanding caller | @laneBusy caller =>
      cases caller <;> simpa [Task.attempts, Task.notIdle] using own
  | _ => simpa [Task.attempts] using own

end Attempts

-----------------------------------------------------------------------------------------
-- Runs without panics
-----------------------------------------------------------------------------------------

/-- No command's execution panics in the move. -/
def CalmMove : TaskPool.Move (Task ι) (Observation ι) → Prop
  | .enter _ => True
  | .run _ shown => ∀ serial, Observation.reached serial .panicked ∉ shown

/-- What lanes and tasks hold. -/
def CommandQueue.heldIn [Fintype ι] (letters : Bool) (pool : CommandPool ι) : Held ι :=
  pool.shared.holds + pool.owned (Task.holds letters)

/-- How often a command is in a place. -/
def CommandQueue.placed [Fintype ι] (letters : Bool) (pool : CommandPool ι) (place : Place)
    (serial : Nat)
    : Nat :=
  (Held.of (heldIn letters pool) serial).countP (fun holding => holding.place = place)

section Runs

variable [Fintype ι] [DecidableEq ι] {dlqSize : Option Nat} {storage : Bool}
  {laneConfigs : ι → LaneId × LaneConfig × Priority} {order : List ι} {pool : CommandPool ι}

omit [Fintype ι] [DecidableEq ι] in
/-- Registration touches nothing but the table of lanes, by induction on the lanes. -/
theorem CommandQueue.build_same (dlqSize : Option Nat) (storage : Bool)
    (laneConfigs : ι → LaneId × LaneConfig × Priority) (order : List ι)
    : (build dlqSize storage laneConfigs order).lifecycle = {}
      ∧ (build dlqSize storage laneConfigs order).dlq = dlqSize.map DeadLetterQueue.new
      ∧ ∀ handle,
          ((build dlqSize storage laneConfigs order).lane handle).state
            = .new (laneConfigs handle).2.1 (laneConfigs handle).2.2 := by
  have registered (queue : CommandQueue ι)
      : (order.foldl registerLane queue).lifecycle = queue.lifecycle
        ∧ (order.foldl registerLane queue).dlq = queue.dlq
        ∧ (order.foldl registerLane queue).lane = queue.lane := by
    induction order generalizing queue with
    | nil => exact ⟨rfl, rfl, rfl⟩
    | cons handle rest ih => exact ih (queue.registerLane handle)
  unfold build
  obtain ⟨lifecycle, dlq, lane⟩ :=
    registered
      (.new dlqSize
        (fun handle =>
          .new (laneConfigs handle).1 (laneConfigs handle).2.1 (laneConfigs handle).2.2 storage))
  exact ⟨lifecycle, dlq, fun handle => congrArg (fun lane => (lane handle).state) lane⟩

/-- The configurations of the lanes. -/
abbrev laneConfigsOf (laneConfigs : ι → LaneId × LaneConfig × Priority) (handle : ι)
    : LaneConfig :=
  (laneConfigs handle).2.1

omit [Fintype ι] in
theorem sound_run {allow : CommandPool ι → TaskPool.Move (Task ι) (Observation ι) → Prop}
    (run
      : (commandSystem ι).Run allow
          (.start (CommandQueue.build dlqSize storage laneConfigs order)) pool)
    : pool.shared.Sound (laneConfigsOf laneConfigs) dlqSize.isSome
      ∧ ∀ task ∈ pool.tasks, task.Sound (laneConfigsOf laneConfigs) := by
  refine TaskPool.invariant_of_segments _ _ run ?_ ?_ ?_
  · obtain ⟨_, dlq, state⟩ := CommandQueue.build_same dlqSize storage laneConfigs order
    constructor
    · rw [dlq, Option.isSome_map]
    · intro handle
      rw [state]
      rfl
    · intro handle
      rw [state]
      exact Nat.zero_le _
    · intro handle wrapper member
      rw [state] at member
      cases member
  · intro task enters
    cases enters <;> trivial
  · exact fun segment sound known => segment.sound sound known

/-- The balance holds along every run without panics. -/
theorem balanced_run
    (run
      : (commandSystem ι).Run (fun _ move => CalmMove move)
          (.start (CommandQueue.build dlqSize storage laneConfigs order)) pool)
    : Balanced (retriesOf (laneConfigsOf laneConfigs)) dlqSize.isSome
        (CommandQueue.heldIn dlqSize.isSome pool) pool.shared.lifecycle pool.shown := by
  refine TaskPool.owned_invariant (Task.holds dlqSize.isSome)
    (fun queue shown owned =>
      Balanced (retriesOf (laneConfigsOf laneConfigs)) dlqSize.isSome (queue.holds + owned)
        queue.lifecycle shown) run ?_ ?_ ?_
  · obtain ⟨lifecycle, _, state⟩ := CommandQueue.build_same dlqSize storage laneConfigs order
    have nothing : (CommandQueue.build dlqSize storage laneConfigs order).holds = 0 := by
      unfold CommandQueue.holds CommandLane.holds
      simp [state, LaneState.new]
    rw [nothing, lifecycle]
    refine ⟨fun serial => ⟨.unborn, .unborn, rfl, ?_⟩, rfl⟩
    simp
  · intro task enters
    cases enters <;> rfl
  · intro before after task next shown others reached member calm segment balanced
    obtain ⟨sound, known⟩ := sound_run reached
    rw [← add_assoc] at balanced ⊢
    exact (segment.effect sound (known task member) calm).balanced balanced

omit [Fintype ι] in
/-- The active counts are the attempts of the tasks along every run without panics. -/
theorem active_run
    (run
      : (commandSystem ι).Run (fun _ move => CalmMove move)
          (.start (CommandQueue.build dlqSize storage laneConfigs order)) pool)
    : ∀ handle, (pool.shared.lane handle).state.active = pool.owned Task.attempts handle := by
  refine TaskPool.owned_invariant Task.attempts
    (fun queue _ owned => ∀ handle, (queue.lane handle).state.active = owned handle) run ?_ ?_ ?_
  · intro handle
    rw [(CommandQueue.build_same dlqSize storage laneConfigs order).2.2 handle]
    rfl
  · intro task enters
    cases enters <;> rfl
  · intro before after task next shown others _ _ calm segment counted
    exact segment.active calm counted

end Runs

-----------------------------------------------------------------------------------------
-- A command that fails for good
-----------------------------------------------------------------------------------------

section Example

/-- A queue with one lane that allows no retries, and with room for one dead letter. -/
def oneLane : CommandQueue Unit := .build (some 1) false (fun _ => ("lane", {}, 0)) [()]

/-- Runs of that queue without panics. -/
abbrev OneLaneRun (pool : CommandPool Unit) : Prop :=
  (commandSystem Unit).Run (fun _ move => CalmMove move) (.start oneLane) pool

variable {shared after : CommandQueue Unit} {task other : Task Unit}
  {tasks rest next : List (Task Unit)} {before shown : List (Observation Unit)}

theorem OneLaneRun.enter (run : OneLaneRun ⟨shared, tasks, before⟩) (enters : task.Entry)
    : OneLaneRun ⟨shared, (task :: tasks : List _), before⟩ :=
  TaskPool.run_enter run enters trivial

theorem OneLaneRun.segment (run : OneLaneRun ⟨shared, (task :: rest : List _), before⟩)
    (segment : Segment shared task after next shown)
    (calm : ∀ serial, Observation.reached serial .panicked ∉ shown)
    : OneLaneRun ⟨after, (next ++ rest : List _), before ++ shown⟩ :=
  TaskPool.run_segment run segment calm

theorem OneLaneRun.swap (run : OneLaneRun ⟨shared, (task :: other :: rest : List _), before⟩)
    : OneLaneRun ⟨shared, (other :: task :: rest : List _), before⟩ :=
  TaskPool.run_swap run

end Example

end Lane
