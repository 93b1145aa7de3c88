import Lane.Command.Holdings

/-! What one segment does to the commands that are held: it leaves them alone, admits a new one,
moves one of them to the next point of its course, or drops one.
-/

namespace Lane

variable {ι : Type} {configs : ι → LaneConfig} {letters : Bool}

-----------------------------------------------------------------------------------------
-- Sound records
-----------------------------------------------------------------------------------------

/-- A wrapper has the retry policy of its lane and the channel of its permit. -/
structure CommandWrapper.Sound (configs : ι → LaneConfig) (handle : ι) (wrapper : CommandWrapper)
    : Prop where
  retryPolicy : wrapper.retryPolicy = (configs handle).retryPolicy
  resultTx : wrapper.resultTx = some wrapper.workPermit.serial

/-- What a task knows about the command that it holds. -/
def Task.Sound (configs : ι → LaneConfig) : Task ι → Prop
  | .configured _ _ handle _ _ retryPolicy => retryPolicy = (configs handle).retryPolicy
  | .saved _ handle wrapper => wrapper.Sound configs handle ∧ wrapper.attempt = 0
  | .dequeued handle wrapper | .running handle wrapper | .completing handle wrapper _
  | .backingOff handle wrapper => wrapper.Sound configs handle
  | .retrying handle wrapper =>
      wrapper.Sound configs handle
        ∧ wrapper.retryPolicy.shouldRetry wrapper.attempt = true
  | .failing handle wrapper _ | .failed handle wrapper _ =>
      wrapper.Sound configs handle
        ∧ wrapper.retryPolicy.shouldRetry wrapper.attempt = false
  | _ => True

/-- The queue keeps its configuration, its capacities and the wrappers of its lanes. -/
structure CommandQueue.Sound (configs : ι → LaneConfig) (letters : Bool)
    (queue : CommandQueue ι)
    : Prop where
  dlq : queue.dlq.isSome = letters
  config : ∀ handle, (queue.lane handle).state.config = configs handle
  capacity : ∀ handle, (queue.lane handle).state.active ≤ (configs handle).maxConcurrency
  pending
    : ∀ handle, ∀ wrapper ∈ (queue.lane handle).state.pending, wrapper.Sound configs handle

section Sound

variable [DecidableEq ι] {queue after : CommandQueue ι} {task : Task ι} {next : List (Task ι)}
  {shown : List (Observation ι)} {handle : ι} {lane : CommandLane}

/-- Writing a lane keeps the queue sound when the lane is sound. -/
theorem CommandQueue.Sound.setLane (sound : queue.Sound configs letters)
    (config : lane.state.config = (queue.lane handle).state.config)
    (capacity : lane.state.active ≤ (configs handle).maxConcurrency)
    (pending : ∀ wrapper ∈ lane.state.pending, wrapper.Sound configs handle)
    : (queue.setLane handle lane).Sound configs letters where
  dlq := sound.dlq
  config := by
    intro other
    by_cases same : other = handle
    · subst same
      simpa [CommandQueue.setLane, config] using sound.config other
    · simpa [CommandQueue.setLane, Function.update_of_ne same] using sound.config other
  capacity := by
    intro other
    by_cases same : other = handle
    · subst same
      simpa [CommandQueue.setLane] using capacity
    · simpa [CommandQueue.setLane, Function.update_of_ne same] using sound.capacity other
  pending := by
    intro other
    by_cases same : other = handle
    · subst same
      simpa [CommandQueue.setLane] using pending
    · simpa [CommandQueue.setLane, Function.update_of_ne same] using sound.pending other

omit [DecidableEq ι] in
theorem CommandQueue.Sound.of_lane (sound : queue.Sound configs letters)
    (dlq : after.dlq.isSome = queue.dlq.isSome) (lane : after.lane = queue.lane)
    : after.Sound configs letters where
  dlq := dlq.trans sound.dlq
  config := lane ▸ sound.config
  capacity := lane ▸ sound.capacity
  pending := lane ▸ sound.pending

@[simp] theorem CommandLane.checkPressure_config (lane : CommandLane)
    : lane.checkPressure.1.state.config = lane.state.config := by
  unfold checkPressure
  split
  · rfl
  · simp only
    split
    · rfl
    · split <;> rfl

@[simp] theorem CommandLane.checkPressure_active (lane : CommandLane)
    : lane.checkPressure.1.state.active = lane.state.active := by
  unfold checkPressure
  split
  · rfl
  · simp only
    split
    · rfl
    · split <;> rfl

omit [DecidableEq ι] in
theorem CommandQueue.admitPermit_lane (queue : CommandQueue ι)
    : queue.admitPermit.1.dlq = queue.dlq ∧ queue.admitPermit.1.lane = queue.lane := by
  unfold admitPermit
  split <;> exact ⟨rfl, rfl⟩

/-- A segment keeps the queue sound and leaves sound tasks, by cases on the segment. -/
theorem Segment.sound (segment : Segment queue task after next shown)
    (sound : queue.Sound configs letters) (known : task.Sound configs)
    : after.Sound configs letters ∧ ∀ other ∈ next, other.Sound configs := by
  have one {task : Task ι} (good : task.Sound configs) : ∀ other ∈ [task], other.Sound configs := by
    intro other member
    rwa [List.mem_singleton.mp member]
  have none : ∀ other ∈ ([] : List (Task ι)), other.Sound configs := by
    intro other member
    cases member
  cases segment with
  | refused refuses =>
      have same := queue.admitPermit_lane
      rw [refuses] at same
      exact ⟨sound.of_lane (congrArg _ same.1) same.2, none⟩
  | accepted accepts =>
      have same := queue.admitPermit_lane
      rw [accepts] at same
      exact ⟨sound.of_lane (congrArg _ same.1) same.2, one trivial⟩
  | configured => exact ⟨sound, one (by simp [Task.Sound, sound.config])⟩
  | saved => exact ⟨sound, one ⟨⟨known, rfl⟩, rfl⟩⟩
  | @enqueued _ handle wrapper =>
      refine ⟨sound.setLane rfl (sound.capacity handle) ?_, one trivial⟩
      intro other member
      rcases List.mem_append.mp member with earlier | last
      · exact sound.pending handle other earlier
      · rw [List.mem_singleton.mp last]
        exact known.1
  | @checked _ _ _ handle =>
      refine ⟨sound.setLane (by simp) ?_ ?_, one trivial⟩
      · simpa using sound.capacity _
      · simpa using sound.pending _
  | limited | acquired =>
      refine ⟨sound.setLane (by simp) ?_ ?_, one trivial⟩
      · simpa using sound.capacity _
      · simpa using sound.pending _
  | @nothingDequeued handle _ nothing =>
      refine ⟨?_, one trivial⟩
      rw [CommandLane.tryDequeue_none nothing]
      exact sound.setLane rfl (sound.capacity handle) (sound.pending handle)
  | @dequeued handle _ wrapper front =>
      obtain ⟨below, popped, active, config⟩ := CommandLane.tryDequeue_some front
      have every := sound.pending handle
      rw [popped] at every
      rw [sound.config] at below
      refine ⟨sound.setLane config ?_ ?_, one (every wrapper List.mem_cons_self)⟩
      · rw [active]
        exact below
      · exact fun other member => every other (List.mem_cons_of_mem _ member)
  | started =>
      refine ⟨sound, ?_⟩
      intro other member
      rcases List.mem_cons.mp member with rfl | running
      · trivial
      · rw [List.mem_singleton.mp running]
        exact known
  | succeeded => exact ⟨sound, one known⟩
  | willRetry _ retries => exact ⟨sound, one ⟨known, retries⟩⟩
  | willFail _ exhausted => exact ⟨sound, one ⟨known, exhausted⟩⟩
  | @delayed handle wrapper =>
      refine ⟨sound.setLane rfl (sound.capacity handle) (sound.pending handle), ?_⟩
      intro other member
      rcases List.mem_cons.mp member with rfl | retried
      · exact ⟨known.1.retryPolicy, known.1.resultTx⟩
      · rw [List.mem_singleton.mp retried]
        trivial
  | lettered _ present =>
      refine ⟨sound.of_lane ?_ rfl, one known⟩
      rw [present]
      rfl
  | unlettered => exact ⟨sound, one known⟩
  | @finished handle permit =>
      refine ⟨sound.setLane rfl ?_ (sound.pending handle), ?_⟩
      · exact le_trans (Nat.sub_le _ _) (sound.capacity handle)
      · intro other member
        obtain ⟨permit, _, rfl⟩ := List.mem_map.mp member
        trivial
  | @requeued handle wrapper =>
      refine ⟨sound.setLane rfl (sound.capacity handle) ?_, none⟩
      intro other member
      rcases List.mem_append.mp member with earlier | last
      · exact sound.pending handle other earlier
      · rw [List.mem_singleton.mp last]
        exact known
  | shutdown => exact ⟨sound.of_lane rfl rfl, none⟩
  | dropped => exact ⟨sound.of_lane rfl rfl, none⟩
  | submitted | rankPanicked | idle => exact ⟨sound, none⟩
  | outstanding | laneBusy => exact ⟨sound, one (by unfold Task.notIdle; split <;> trivial)⟩
  | _ => exact ⟨sound, one trivial⟩

end Sound

-----------------------------------------------------------------------------------------
-- Effects
-----------------------------------------------------------------------------------------

/-- The milestones among what is shown, with the numbers of their commands. -/
def reachedIn (shown : List (Observation ι)) : List (Nat × Milestone ι) :=
  shown.filterMap
    (fun
      | .reached serial milestone => some (serial, milestone)
      | _ => none)

/-- The milestones of one command, in order. -/
def milestones (shown : List (Observation ι)) (serial : Nat) : List (Milestone ι) :=
  (reachedIn shown).filterMap (fun reached => if reached.1 = serial then some reached.2 else none)

/-- What the tasks of a list hold. -/
def heldBy (letters : Bool) (tasks : List (Task ι)) : Held ι :=
  (tasks.map (Task.holds letters)).sum

/-- What a segment does to the commands that are held before and after it. -/
inductive Effect (maxRetries : ι → Nat) (letters : Bool) (held later : Held ι)
    (lifecycle after : QueueLifecycle)
    : List (Nat × Milestone ι) → Prop
  | quiet (same : later = held) (outstanding : after.outstanding = lifecycle.outstanding)
    (admitted : after.admitted = lifecycle.admitted)
    : Effect maxRetries letters held later lifecycle after []
  | accepts (more : later = held + {(lifecycle.admitted, .enqueuing)})
    (outstanding : after.outstanding = lifecycle.outstanding + 1)
    (admitted : after.admitted = lifecycle.admitted + 1)
    : Effect maxRetries letters held later lifecycle after [(lifecycle.admitted, .accepted)]
  | passes {serial : Nat} {milestone : Milestone ι} {holding moved : Holding ι}
    {others : Held ι} (was : held = others + {(serial, holding)})
    (becomes : later = others + {(serial, moved)})
    (next
      : ∀ course,
          course.holding = some holding
          → ∃ further,
              Course.Next maxRetries letters course milestone further
              ∧ further.holding = some moved)
    (outstanding : after.outstanding = lifecycle.outstanding)
    (admitted : after.admitted = lifecycle.admitted)
    : Effect maxRetries letters held later lifecycle after [(serial, milestone)]
  | drops {serial : Nat} (was : held = later + {(serial, .leaving)})
    (outstanding
      : lifecycle.outstanding ≠ 0 → after.outstanding = lifecycle.outstanding - 1)
    (admitted : after.admitted = lifecycle.admitted)
    : Effect maxRetries letters held later lifecycle after [(serial, .dropped)]

theorem reachedIn_append (shown more : List (Observation ι))
    : reachedIn (shown ++ more) = reachedIn shown ++ reachedIn more :=
  List.filterMap_append

theorem reachedIn_storage (storage : Bool) (observation : Observation ι)
    (silent : ∀ serial milestone, observation ≠ .reached serial milestone)
    : reachedIn (if storage then [observation] else []) = [] := by
  cases storage with
  | false => rfl
  | true =>
      cases observation with
      | reached serial milestone => exact absurd rfl (silent serial milestone)
      | _ => rfl

/-- The retries that the lanes allow. -/
abbrev retriesOf (configs : ι → LaneConfig) (handle : ι) : Nat :=
  (configs handle).retryPolicy.maxRetries

theorem CommandWrapper.Sound.retries {handle : ι} {wrapper : CommandWrapper}
    (sound : wrapper.Sound configs handle) (attempt : Nat)
    : wrapper.retryPolicy.shouldRetry attempt = true ↔ attempt < retriesOf configs handle := by
  simp [RetryPolicy.shouldRetry, sound.retryPolicy]

theorem CommandWrapper.Sound.exhausted {handle : ι} {wrapper : CommandWrapper}
    (sound : wrapper.Sound configs handle) (attempt : Nat)
    : wrapper.retryPolicy.shouldRetry attempt = false ↔ retriesOf configs handle ≤ attempt := by
  simp [RetryPolicy.shouldRetry, sound.retryPolicy]

/-- The point of the course that a holding stands for. -/
def Holding.course : Holding ι → Option (Course ι)
  | .enqueuing => some .enqueuing
  | .pending handle attempt => some (.pending handle attempt)
  | .dequeued handle attempt => some (.dequeued handle attempt)
  | .running handle attempt => some (.running handle attempt)
  | .backingOff handle attempt => some (.backingOff handle attempt)
  | .lettered handle attempt => some (.lettered handle attempt)
  | .leaving => none

theorem Course.course_of_holding {course known : Course ι} {holding : Holding ι}
    (stands : holding.course = some known) (holds : course.holding = some holding)
    : course = known := by
  cases course <;> cases holds <;> cases stands <;> rfl

/-- The step of a command whose place is known. -/
theorem Effect.move {held later : Held ι} {lifecycle after : QueueLifecycle} {serial : Nat}
    {milestone : Milestone ι} {holding moved : Holding ι} {others : Held ι}
    {course further : Course ι} {maxRetries : ι → Nat}
    (was : held = others + {(serial, holding)}) (becomes : later = others + {(serial, moved)})
    (stands : holding.course = some course)
    (next : Course.Next maxRetries letters course milestone further)
    (holds : further.holding = some moved)
    (outstanding : after.outstanding = lifecycle.outstanding)
    (admitted : after.admitted = lifecycle.admitted)
    : Effect maxRetries letters held later lifecycle after [(serial, milestone)] := by
  refine .passes was becomes ?_ outstanding admitted
  intro other isHeld
  rw [Course.course_of_holding stands isHeld]
  exact ⟨further, next, holds⟩

section Effect

variable [DecidableEq ι] [Fintype ι] {queue after : CommandQueue ι} {task : Task ι}
  {next : List (Task ι)} {shown : List (Observation ι)}

/-- The effect of a segment that does not panic, by cases on the segment. -/
theorem Segment.effect (segment : Segment queue task after next shown)
    (sound : queue.Sound configs letters) (known : task.Sound configs)
    (calm : ∀ serial, Observation.reached serial .panicked ∉ shown)
    : Effect (retriesOf configs) letters (queue.holds + task.holds letters)
        (after.holds + heldBy letters next) queue.lifecycle after.lifecycle (reachedIn shown) := by
  cases segment with
  | refused refuses =>
      unfold CommandQueue.admitPermit at refuses
      split at refuses
      · cases refuses
        exact .quiet (by simp [heldBy, Task.holds]) rfl rfl
      · cases refuses
  | accepted accepts =>
      unfold CommandQueue.admitPermit at accepts
      split at accepts
      · cases accepts
      · cases accepts
        exact .accepts (by simp [heldBy, Task.holds, CommandQueue.holds]) rfl rfl
  | laneNotFound absent =>
      exact .move rfl (by simp [heldBy, Task.holds]) rfl .rejected rfl rfl rfl
  | @enqueued _ handle wrapper =>
      have pushed
          : (queue.setLane handle ((queue.lane handle).enqueue wrapper)).holds
            = queue.holds + {(wrapper.workPermit.serial, .pending handle wrapper.attempt)} :=
        CommandQueue.holds_setLane_push rfl
      rw [known.2] at pushed
      exact .move rfl (by rw [pushed]; simp [heldBy, Task.holds]) rfl (.enqueued handle) rfl rfl
        rfl
  | @dequeued handle rest wrapper front =>
      have popped := CommandQueue.holds_setLane_pop (CommandLane.tryDequeue_some front).2.1
      have was
          : queue.holds + (Task.dequeuing handle rest).holds letters
            = (queue.setLane handle (queue.lane handle).tryDequeue.1).holds
              + {(wrapper.workPermit.serial, .pending handle wrapper.attempt)} := by
        rw [popped]
        simp [Task.holds]
      exact .move was (by simp [heldBy, Task.holds]) rfl (.dequeued handle _) rfl rfl rfl
  | @started handle wrapper =>
      exact .move rfl (by simp [heldBy, Task.holds]) rfl (.started handle _) rfl rfl rfl
  | panicked => exact absurd (List.mem_singleton.mpr rfl) (calm _)
  | @completed handle wrapper value =>
      rw [reachedIn_append, reachedIn_append, reachedIn_storage _ _ (by simp), known.resultTx]
      exact .move rfl (by simp [heldBy, Task.holds]) rfl (.succeeded handle _ value) rfl rfl rfl
  | @delayed handle wrapper =>
      have same : (queue.setLane handle (queue.lane handle).countRetry).holds = queue.holds :=
        CommandQueue.holds_setLane_of_pending rfl
      exact .move rfl (by rw [same]; simp [heldBy, Task.holds]) rfl
        (.delayed handle ((known.1.retries _).mp known.2)) rfl rfl rfl
  | @lettered handle wrapper error dlq now present =>
      have isPresent : letters = true := by
        rw [← sound.dlq, present]
        rfl
      rw [reachedIn_append, reachedIn_storage _ _ (by simp)]
      have lettered : heldBy letters [Task.failed handle wrapper error]
          = {(wrapper.workPermit.serial, .lettered handle wrapper.attempt)} := by
        simp [heldBy, Task.holds, isPresent]
      rw [lettered]
      exact .move rfl rfl rfl
        (.lettered handle _ isPresent ((known.1.exhausted _).mp known.2)) rfl rfl rfl
  | @unlettered handle wrapper error absent =>
      have isAbsent : letters = false := by
        rw [← sound.dlq, absent]
        rfl
      rw [reachedIn_storage _ _ (by simp)]
      exact .quiet (by simp [heldBy, Task.holds, isAbsent]) rfl rfl
  | @failed handle wrapper error =>
      rw [reachedIn_append, known.1.resultTx]
      have exhausted := (known.1.exhausted _).mp known.2
      cases isPresent : letters with
      | true =>
          exact .move rfl (by simp [heldBy, Task.holds]) rfl
            (.failedLettered handle wrapper.attempt error rfl) rfl rfl rfl
      | false =>
          exact .move rfl (by simp [heldBy, Task.holds]) rfl
            (.failed handle error rfl exhausted) rfl rfl rfl
  | @finished handle permit =>
      have same : (queue.setLane handle (queue.lane handle).markCompleted).holds = queue.holds :=
        CommandQueue.holds_setLane_of_pending rfl
      refine .quiet ?_ rfl rfl
      rw [same]
      cases permit <;> simp [heldBy, Task.holds]
  | @requeued handle wrapper =>
      have pushed
          : (queue.setLane handle ((queue.lane handle).requeue wrapper)).holds
            = queue.holds + {(wrapper.workPermit.serial, .pending handle wrapper.attempt)} :=
        CommandQueue.holds_setLane_push rfl
      exact .move rfl (by rw [pushed]; simp [heldBy]) rfl (.requeued handle _) rfl rfl
        rfl
  | @dropped permit =>
      refine .drops (by simp [heldBy, Task.holds, CommandQueue.holds, CommandQueue.dropPermit]) ?_
        rfl
      intro some
      simp [CommandQueue.dropPermit, some]
  | shutdown =>
      rw [reachedIn_storage _ _ (by simp)]
      exact .quiet (by simp [heldBy, Task.holds, CommandQueue.holds, CommandQueue.beginShutdown])
        rfl rfl
  | saved id now =>
      rw [reachedIn_storage _ _ (by simp)]
      exact .quiet (by simp [heldBy, Task.holds, newWrapper]) rfl rfl
  | @checked _ _ laneId handle =>
      have same : (queue.setLane handle (queue.lane handle).checkPressure.1).holds = queue.holds :=
        CommandQueue.holds_setLane_of_pending (by simp)
      have shows : reachedIn
          ((queue.lane handle).checkPressure.2.toList.map
            (fun key =>
              (.emitted { key, payload := [("lane_id", .string laneId)] } : Observation ι)))
          = [] := by
        cases (queue.lane handle).checkPressure.2 <;> rfl
      rw [shows]
      exact .quiet (by rw [same]; simp [heldBy, Task.holds]) rfl rfl
  | @limited handle _ newTokens | @acquired handle _ newTokens =>
      have same
          : (queue.setLane handle ((queue.lane handle).tryAcquire newTokens).1).holds
            = queue.holds :=
        CommandQueue.holds_setLane_of_pending (by simp)
      exact .quiet (by rw [same]; simp [heldBy, Task.holds]) rfl rfl
  | @nothingDequeued handle _ nothing =>
      have same : (queue.setLane handle (queue.lane handle).tryDequeue.1).holds = queue.holds :=
        CommandQueue.holds_setLane_of_pending (by rw [CommandLane.tryDequeue_none nothing])
      exact .quiet (by rw [same]; simp [heldBy, Task.holds]) rfl rfl
  | @outstanding caller | @laneBusy caller =>
      exact .quiet (by cases caller <;> simp [heldBy, Task.holds, Task.notIdle]) rfl rfl
  | @idle caller =>
      have shows : reachedIn [(Task.foundIdle caller : Observation ι)] = [] := by
        cases caller <;> rfl
      rw [shows]
      exact .quiet (by simp [heldBy, Task.holds]) rfl rfl
  | _ => exact .quiet (by simp [heldBy, Task.holds]) rfl rfl

end Effect

end Lane
