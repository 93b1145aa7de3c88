import Lane.Contract.LaneCapacity

/-! Graceful shutdown: a queue that shuts down admits nothing more, and who finds it idle finds
every accepted command resolved and dropped and every lane idle, although the flag, the outstanding
commands and the lanes are read one after the other.
-/

namespace Lane

variable {ι : Type} [DecidableEq ι]

-----------------------------------------------------------------------------------------
-- One segment
-----------------------------------------------------------------------------------------

namespace CommandQueue

/-- The lane is registered under some id. -/
def Registers (queue : CommandQueue ι) (handle : ι) : Prop :=
  ∃ laneId, queue.lanes.lookup laneId = some handle

/-- The queue shuts down and has no outstanding commands. -/
structure Drained (queue : CommandQueue ι) : Prop where
  shutting : queue.lifecycle.isShuttingDown = true
  none : queue.lifecycle.outstanding = 0

omit [DecidableEq ι] in
/-- The lanes of a snapshot are the registered ones. -/
theorem registers_iff (queue : CommandQueue ι) (handle : ι)
    : queue.Registers handle ↔ handle ∈ queue.lanes.entries.map Sigma.snd := by
  constructor
  · rintro ⟨laneId, found⟩
    exact List.mem_map.mpr ⟨⟨laneId, handle⟩, AList.mem_lookup_iff.mp found, rfl⟩
  · intro member
    obtain ⟨⟨laneId, other⟩, within, rfl⟩ := List.mem_map.mp member
    exact ⟨laneId, AList.mem_lookup_iff.mpr within⟩

theorem isIdle_setLane (queue : CommandQueue ι) (handle other : ι) (lane : CommandLane)
    (kept : (queue.lane handle).isIdle = true → lane.isIdle = true)
    (idle : (queue.lane other).isIdle = true)
    : ((queue.setLane handle lane).lane other).isIdle = true := by
  unfold setLane
  by_cases same : other = handle
  · subst same
    simpa using kept idle
  · simpa [same] using idle

end CommandQueue

section Segments

variable {queue after : CommandQueue ι} {task : Task ι} {next : List (Task ι)}
  {shown : List (Observation ι)} {letters : Bool}

/-- No segment registers a lane. -/
theorem Segment.lanes (segment : Segment queue task after next shown)
    : after.lanes = queue.lanes := by
  cases segment with
  | refused refuses =>
      unfold CommandQueue.admitPermit at refuses
      split at refuses <;> cases refuses
      rfl
  | accepted accepts =>
      unfold CommandQueue.admitPermit at accepts
      split at accepts <;> cases accepts
      rfl
  | _ => rfl

/-- No segment takes the shutdown back, and none admits a command after it. -/
theorem Segment.shutting (segment : Segment queue task after next shown)
    (shutting : queue.lifecycle.isShuttingDown = true)
    : after.lifecycle.isShuttingDown = true
      ∧ after.lifecycle.admitted = queue.lifecycle.admitted := by
  cases segment with
  | refused refuses =>
      unfold CommandQueue.admitPermit at refuses
      rw [if_pos shutting] at refuses
      cases refuses
      exact ⟨shutting, rfl⟩
  | accepted accepts =>
      unfold CommandQueue.admitPermit at accepts
      rw [if_pos shutting] at accepts
      cases accepts
  | shutdown => exact ⟨rfl, rfl⟩
  | _ => exact ⟨shutting, rfl⟩

/-- In a drained queue without held commands, every segment leaves the queue drained and idle
lanes idle.
-/
theorem Segment.drained (segment : Segment queue task after next shown)
    (drained : queue.Drained) (free : task.holds letters = 0)
    (empty : ∀ handle, (queue.lane handle).state.pending = [])
    : after.Drained
      ∧ ∀ handle, (queue.lane handle).isIdle = true → (after.lane handle).isIdle = true := by
  have shutting := (segment.shutting drained.shutting).1
  cases segment with
  | refused refuses =>
      unfold CommandQueue.admitPermit at refuses
      rw [if_pos drained.shutting] at refuses
      cases refuses
      exact ⟨drained, fun _ idle => idle⟩
  | accepted accepts =>
      unfold CommandQueue.admitPermit at accepts
      rw [if_pos drained.shutting] at accepts
      cases accepts
  | dequeued front =>
      have pending := (CommandLane.tryDequeue_some front).2.1
      rw [empty] at pending
      cases pending
  | checked =>
      refine ⟨⟨drained.shutting, drained.none⟩, fun handle => ?_⟩
      refine queue.isIdle_setLane _ handle _ ?_
      simp [CommandLane.isIdle_iff]
  | limited | acquired =>
      refine ⟨⟨drained.shutting, drained.none⟩, fun handle => ?_⟩
      refine queue.isIdle_setLane _ handle _ ?_
      simp [CommandLane.isIdle_iff]
  | nothingDequeued nothing =>
      refine ⟨⟨drained.shutting, drained.none⟩, fun handle => ?_⟩
      refine queue.isIdle_setLane _ handle _ ?_
      rw [CommandLane.tryDequeue_none nothing]
      exact id
  | finished =>
      refine ⟨⟨drained.shutting, drained.none⟩, fun handle => ?_⟩
      refine queue.isIdle_setLane _ handle _ ?_
      intro idle
      obtain ⟨pending, active, delayed⟩ := (CommandLane.isIdle_iff _).mp idle
      exact (CommandLane.isIdle_iff _).mpr ⟨pending, by simp [CommandLane.markCompleted, active],
        delayed⟩
  | shutdown => exact ⟨⟨shutting, drained.none⟩, fun _ idle => idle⟩
  | enqueued | delayed | lettered | requeued | dropped =>
      simp [Task.holds] at free
  | _ => exact ⟨drained, fun _ idle => idle⟩

-----------------------------------------------------------------------------------------
-- The idle test
-----------------------------------------------------------------------------------------

/-- What a task of this kind of caller has found out on its way through the idle test. -/
def Task.Checked (queue : CommandQueue ι) (caller : IdleCaller) : Task ι → Prop
  | .waiting => caller = .waiter → queue.lifecycle.isShuttingDown = true
  | .idling other => other = caller → queue.lifecycle.isShuttingDown = true
  | .probing other rest =>
      other = caller
        → queue.Drained
          ∧ ∀ handle, queue.Registers handle → handle ∈ rest ∨ (queue.lane handle).isIdle = true
  | _ => True

/-- What a task has found out stays true when another task runs. -/
theorem Segment.checked_other (segment : Segment queue task after next shown)
    (letters : Bool) {caller : IdleCaller} {other : Task ι} (checked : other.Checked queue caller)
    (nothing
      : queue.lifecycle.outstanding = 0
        → task.holds letters = 0 ∧ ∀ handle, (queue.lane handle).state.pending = [])
    : other.Checked after caller := by
  cases other with
  | waiting => exact fun same => (segment.shutting (checked same)).1
  | idling other => exact fun same => (segment.shutting (checked same)).1
  | probing other rest =>
      intro same
      obtain ⟨drained, probed⟩ := checked same
      obtain ⟨free, empty⟩ := nothing drained.none
      obtain ⟨still, idles⟩ := segment.drained drained free empty
      refine ⟨still, ?_⟩
      rintro handle ⟨laneId, found⟩
      rw [segment.lanes] at found
      exact (probed handle ⟨laneId, found⟩).imp_right (idles handle)
  | _ => trivial

/-- A segment of the idle test checks what the next one relies on, by cases on the segment. -/
theorem Segment.checked_own (segment : Segment queue task after next shown)
    {caller : IdleCaller} (checked : task.Checked queue caller)
    : ∀ other ∈ next, other.Checked after caller := by
  cases segment with
  | closing shutting =>
      intro other member
      obtain rfl := List.mem_singleton.mp member
      exact fun _ => shutting
  | asked =>
      intro other member
      obtain rfl := List.mem_singleton.mp member
      exact fun same => checked same.symm
  | @outstanding own busy =>
      intro other member
      obtain rfl := List.mem_singleton.mp member
      cases own with
      | scheduler => trivial
      | waiter => exact fun same => checked same.symm
  | @noneOutstanding own done =>
      intro other member
      obtain rfl := List.mem_singleton.mp member
      intro same
      refine ⟨⟨checked same, done⟩, ?_⟩
      exact fun handle registered => .inl ((queue.registers_iff handle).mp registered)
  | @laneBusy own handle rest busy =>
      intro other member
      obtain rfl := List.mem_singleton.mp member
      cases own with
      | scheduler => trivial
      | waiter => exact fun same => (checked same.symm).1.shutting
  | @laneIdle own handle rest idle =>
      intro other member
      obtain rfl := List.mem_singleton.mp member
      intro same
      obtain ⟨drained, probed⟩ := checked same
      refine ⟨drained, ?_⟩
      intro lane registered
      rcases probed lane registered with member | found
      · rcases List.mem_cons.mp member with rfl | later
        · exact .inr idle
        · exact .inl later
      · exact .inr found
  | finished =>
      intro other member
      obtain ⟨permit, _, rfl⟩ := List.mem_map.mp member
      trivial
  | _ => simp [Task.Checked]

/-- Only who has probed every lane shows that the queue is idle. -/
theorem Segment.of_foundIdle (segment : Segment queue task after next shown)
    (caller : IdleCaller) (shows : Task.foundIdle caller ∈ shown)
    : task = .probing caller [] ∧ after = queue ∧ next = [] := by
  cases segment with
  | @idle own =>
      obtain same := List.mem_singleton.mp shows
      cases caller <;> cases own <;> cases same <;> exact ⟨rfl, rfl, rfl⟩
  | saved | unlettered | shutdown =>
      split at shows <;> cases caller <;> simp [Task.foundIdle] at shows
  | completed | lettered =>
      rcases List.mem_append.mp shows with shows | shows
      · split at shows <;> cases caller <;> simp [Task.foundIdle, commandEvent] at shows
      · cases caller <;> simp [Task.foundIdle, commandEvent] at shows
  | _ => cases caller <;> simp [Task.foundIdle, commandEvent] at shows

-----------------------------------------------------------------------------------------
-- Registered lanes
-----------------------------------------------------------------------------------------

/-- A scheduler goes through registered lanes only. -/
def Task.Within (registered : ι → Prop) : Task ι → Prop
  | .checking lanes rest =>
      (∀ entry ∈ lanes, registered entry.2) ∧ ∀ entry ∈ rest, registered entry.2
  | .ranking rest ranked => (∀ handle ∈ rest, registered handle) ∧ ∀ entry ∈ ranked, registered entry.2
  | .polling rest => ∀ handle ∈ rest, registered handle
  | .dequeuing handle rest => registered handle ∧ ∀ handle ∈ rest, registered handle
  | _ => True

/-- Only registered lanes have active commands. -/
structure CommandQueue.ActiveWithin (registered : ι → Prop) (queue : CommandQueue ι) : Prop where
  registers : queue.Registers = registered
  active : ∀ handle, (queue.lane handle).state.active ≠ 0 → registered handle

theorem CommandQueue.ActiveWithin.setLane {registered : ι → Prop}
    (within : queue.ActiveWithin registered) {handle : ι} {lane : CommandLane}
    (active : lane.state.active ≠ 0 → registered handle)
    : (queue.setLane handle lane).ActiveWithin registered := by
  refine ⟨within.registers, ?_⟩
  intro other busy
  rw [CommandQueue.active_setLane] at busy
  split at busy
  · next same => exact same ▸ active busy
  · exact within.active other busy

/-- A segment that keeps the lanes' active counts keeps them within the registered lanes. -/
theorem Segment.within {registered : ι → Prop} (segment : Segment queue task after next shown)
    (sound : queue.ActiveWithin registered) (known : task.Within registered)
    : after.ActiveWithin registered ∧ ∀ other ∈ next, other.Within registered := by
  have kept : after.Registers = registered := by
    unfold CommandQueue.Registers
    rw [segment.lanes]
    exact sound.registers
  cases segment with
  | refused refuses =>
      have same := queue.admitPermit_lane
      rw [refuses] at same
      exact ⟨⟨kept, by rw [same.2]; exact sound.active⟩, by simp⟩
  | accepted accepts =>
      have same := queue.admitPermit_lane
      rw [accepts] at same
      exact ⟨⟨kept, by rw [same.2]; exact sound.active⟩, by simp [Task.Within]⟩
  | snapshot =>
      have snapshot : ∀ entry ∈ queue.lanes.entries.map (fun entry => (entry.1, entry.2)),
          registered entry.2 := by
        intro entry member
        obtain ⟨⟨laneId, handle⟩, within, rfl⟩ := List.mem_map.mp member
        rw [← sound.registers]
        exact ⟨laneId, AList.mem_lookup_iff.mpr within⟩
      refine ⟨sound, ?_⟩
      intro other member
      obtain rfl := List.mem_singleton.mp member
      exact ⟨snapshot, snapshot⟩
  | @checked lanes rest laneId handle =>
      refine ⟨sound.setLane ?_, ?_⟩
      · simpa using sound.active handle
      · intro other member
        obtain rfl := List.mem_singleton.mp member
        exact ⟨known.1, fun entry later => known.2 entry (.tail _ later)⟩
  | @allChecked lanes =>
      refine ⟨sound, ?_⟩
      intro other member
      obtain rfl := List.mem_singleton.mp member
      refine ⟨?_, by simp⟩
      intro handle found
      obtain ⟨entry, within, rfl⟩ := List.mem_map.mp found
      exact known.1 entry within
  | @ranked handle rest ranked priority now boosted =>
      refine ⟨sound, ?_⟩
      intro other member
      obtain rfl := List.mem_singleton.mp member
      refine ⟨fun handle later => known.1 handle (.tail _ later), ?_⟩
      intro entry found
      rcases List.mem_append.mp found with earlier | last
      · exact known.2 entry earlier
      · obtain rfl := List.mem_singleton.mp last
        exact known.1 handle List.mem_cons_self
  | @allRanked ranked =>
      refine ⟨sound, ?_⟩
      intro other member
      obtain rfl := List.mem_singleton.mp member
      intro handle found
      obtain ⟨entry, sorted, rfl⟩ := List.mem_map.mp found
      exact known.2 entry ((List.mem_insertionSort _).mp sorted)
  | @limited handle rest newTokens =>
      refine ⟨sound.setLane ?_, ?_⟩
      · simpa using sound.active handle
      · intro other member
        obtain rfl := List.mem_singleton.mp member
        exact fun later found => known later (.tail _ found)
  | @acquired handle rest newTokens =>
      refine ⟨sound.setLane ?_, ?_⟩
      · simpa using sound.active handle
      · intro other member
        obtain rfl := List.mem_singleton.mp member
        exact ⟨known handle List.mem_cons_self, fun later found => known later (.tail _ found)⟩
  | @nothingDequeued handle rest nothing =>
      refine ⟨sound.setLane ?_, ?_⟩
      · rw [CommandLane.tryDequeue_none nothing]
        exact sound.active handle
      · intro other member
        obtain rfl := List.mem_singleton.mp member
        exact known.2
  | dequeued =>
      exact ⟨sound.setLane fun _ => known.1, by simp [Task.Within]⟩
  | @enqueued _ handle wrapper =>
      exact ⟨sound.setLane (by simpa using sound.active handle), by simp [Task.Within]⟩
  | @delayed handle wrapper =>
      exact ⟨sound.setLane (by simpa using sound.active handle), by simp [Task.Within]⟩
  | @requeued handle wrapper =>
      exact ⟨sound.setLane (by simpa using sound.active handle), by simp⟩
  | @finished handle permit =>
      refine ⟨sound.setLane ?_, ?_⟩
      · intro busy
        refine sound.active handle ?_
        simp only [CommandLane.markCompleted] at busy
        omega
      · intro other member
        obtain ⟨permit, _, rfl⟩ := List.mem_map.mp member
        trivial
  | @outstanding caller | @laneBusy caller =>
      refine ⟨sound, ?_⟩
      cases caller <;> simp [Task.Within, Task.notIdle]
  | _ =>
      exact ⟨⟨kept, sound.active⟩, by simp [Task.Within]⟩

end Segments

-----------------------------------------------------------------------------------------
-- Whole runs
-----------------------------------------------------------------------------------------

/-- Every command ever admitted is resolved, by its result or by the rejection of its submission,
and dropped, and every lane is idle.
-/
structure Quiescent (pool : CommandPool ι) : Prop where
  resolved
    : ∀ serial < pool.shared.lifecycle.admitted,
        (milestones pool.shown serial).countP Milestone.isSent
          + (milestones pool.shown serial).countP Milestone.isRejected
        = 1
  dropped
    : ∀ serial < pool.shared.lifecycle.admitted,
        (milestones pool.shown serial).countP Milestone.isDropped = 1
  idle : ∀ handle, (pool.shared.lane handle).isIdle = true

section Runs

variable [Fintype ι] {dlqSize : Option Nat} {storage : Bool}
  {laneConfigs : ι → LaneId × LaneConfig × Priority} {order : List ι}
  {pool later : CommandPool ι}

omit [Fintype ι] in
/-- Only registered lanes have active commands, along every run. -/
theorem activeWithin_run
    (run
      : (commandSystem ι).Reaches
          (.start (CommandQueue.build dlqSize storage laneConfigs order)) pool)
    : ∀ handle,
        (pool.shared.lane handle).state.active ≠ 0 → pool.shared.Registers handle := by
  have within := TaskPool.invariant_of_segments
    (CommandQueue.ActiveWithin (CommandQueue.build dlqSize storage laneConfigs order).Registers)
    (Task.Within (CommandQueue.build dlqSize storage laneConfigs order).Registers) run ?_ ?_ ?_
  · intro handle busy
    rw [within.1.registers]
    exact within.1.active handle busy
  · refine ⟨rfl, ?_⟩
    intro handle busy
    rw [(CommandQueue.build_same dlqSize storage laneConfigs order).2.2 handle] at busy
    exact absurd rfl busy
  · intro task enters
    cases enters <;> trivial
  · exact fun segment sound known => segment.within sound known

omit [Fintype ι] [DecidableEq ι] in
/-- A course that holds its command no more has resolved and dropped it. -/
theorem Course.gone {course : Course ι} (born : course ≠ .unborn)
    (gone : (course.holding.elim 0 singleton : Multiset (Holding ι)) = 0)
    : course.succeeded.toList.length + course.rejections = 1 ∧ course.drops = 1 := by
  cases course with
  | unborn => exact absurd rfl born
  | dropped ending => cases ending <;> exact ⟨rfl, rfl⟩
  | _ => cases Multiset.singleton_ne_zero _ gone

/-- Idle lanes and no outstanding commands make a reachable pool quiescent. -/
theorem quiescent_of_idle
    (run
      : (commandSystem ι).Reaches
          (.start (CommandQueue.build dlqSize storage laneConfigs order)) pool)
    (none : pool.shared.lifecycle.outstanding = 0)
    (idle : ∀ handle, pool.shared.Registers handle → (pool.shared.lane handle).isIdle = true)
    : Quiescent pool := by
  have free : ∀ handle, (pool.shared.lane handle).state.active = 0 := by
    intro handle
    by_contra busy
    have registered := activeWithin_run run handle busy
    exact busy ((CommandLane.isIdle_iff _).mp (idle handle registered)).2.1
  have quiet : ¬ Panicked pool.shown := by
    intro panicked
    obtain ⟨panics, active, leaks⟩ := panics_run run
    refine leaks panicked ?_
    funext handle
    have counted := active handle
    rw [free handle] at counted
    exact (Nat.eq_zero_of_add_eq_zero_left counted.symm)
  have balanced := balanced_run (calm_run run quiet)
  have nothing : CommandQueue.heldIn dlqSize.isSome pool = 0 := by
    rw [← Multiset.card_eq_zero, ← counted_run run, none]
  have gone : ∀ serial < pool.shared.lifecycle.admitted,
      ∃ course,
        Course.Follows (retriesOf (laneConfigsOf laneConfigs)) dlqSize.isSome
          (milestones pool.shown serial) course
        ∧ course.succeeded.toList.length + course.rejections = 1
        ∧ course.drops = 1 := by
    intro serial admitted
    obtain ⟨course, follows, isHeld, unborn⟩ := balanced.courses serial
    rw [nothing] at isHeld
    refine ⟨course, follows, Course.gone ?_ isHeld.symm⟩
    exact fun same => absurd (unborn.mp same) (not_le.mpr admitted)
  refine ⟨?_, ?_, ?_⟩
  · intro serial admitted
    obtain ⟨course, follows, resolved, _⟩ := gone serial admitted
    rw [follows.sent, follows.rejected]
    exact resolved
  · intro serial admitted
    obtain ⟨course, follows, _, dropped⟩ := gone serial admitted
    rw [follows.dropped]
    exact dropped
  · intro handle
    obtain ⟨pending, delayed⟩ := (nothing_held run none).2 handle
    exact (CommandLane.isIdle_iff _).mpr ⟨pending, free handle, delayed⟩

omit [Fintype ι] in
/-- A queue that shuts down admits nothing more, by induction on the run. -/
theorem shutting_run (run : (commandSystem ι).Reaches pool later)
    (shutting : pool.shared.lifecycle.isShuttingDown = true)
    : later.shared.lifecycle.isShuttingDown = true
      ∧ later.shared.lifecycle.admitted = pool.shared.lifecycle.admitted := by
  induction run with
  | refl => exact ⟨shutting, rfl⟩
  | tail _ _ step ih =>
      cases step with
      | enter => exact ih
      | run runs =>
          obtain ⟨still, same⟩ := runs.shutting ih.1
          exact ⟨still, same.trans ih.2⟩

/-- What a scheduler has checked holds along every run, by induction on it. -/
theorem checked_run
    (run
      : (commandSystem ι).Reaches
          (.start (CommandQueue.build dlqSize storage laneConfigs order)) pool)
    : ∀ task ∈ pool.tasks, task.Checked pool.shared .scheduler := by
  induction run with
  | refl => exact fun task member => absurd member (Multiset.notMem_zero task)
  | tail before _ step ih =>
      cases step with
      | enter enters =>
          intro task member
          rcases Multiset.mem_cons.mp member with rfl | other
          · cases enters with
            | waiting => exact fun same => nomatch same
            | _ => trivial
          · exact ih task other
      | @run _ _ own rest _ _ _ runs =>
          intro task member
          rcases Multiset.mem_add.mp member with new | other
          · exact runs.checked_own (ih own (Multiset.mem_cons_self _ _)) task
              (Multiset.mem_coe.mp new)
          · refine runs.checked_other dlqSize.isSome (ih task (Multiset.mem_cons_of_mem other)) ?_
            intro none
            obtain ⟨free, lanes⟩ := nothing_held before none
            exact ⟨free own (Multiset.mem_cons_self _ _), fun handle => (lanes handle).1⟩

/-- What a followed task has checked holds along every run, by induction on it. -/
theorem followed_run {allow} {start followed : TaskPool.Followed _ _ _} (caller : IdleCaller)
    (run : (TaskPool.followedSystem Task.Entry Segment).Run allow start followed)
    (reached
      : (commandSystem ι).Reaches
          (.start (CommandQueue.build dlqSize storage laneConfigs order)) start.whole)
    (checked : start.task.Checked start.others.shared caller)
    : (commandSystem ι).Reaches
        (.start (CommandQueue.build dlqSize storage laneConfigs order)) followed.whole
      ∧ followed.task.Checked followed.others.shared caller := by
  induction run with
  | refl => exact ⟨reached, checked⟩
  | tail _ _ step ih =>
      obtain ⟨before, checked⟩ := ih
      refine ⟨.tail before trivial step.whole, ?_⟩
      cases step with
      | other step =>
          cases step with
          | enter enters => exact checked
          | @run _ _ own rest _ _ _ runs =>
              refine runs.checked_other dlqSize.isSome checked ?_
              intro none
              obtain ⟨free, lanes⟩ := nothing_held before none
              refine ⟨free own ?_, fun handle => (lanes handle).1⟩
              exact Multiset.mem_cons_of_mem (Multiset.mem_cons_self own rest)
      | own runs => exact runs.checked_own checked _ (List.mem_singleton.mpr rfl)

/-- A probe of all lanes that has come to its end finds the pool quiescent. -/
theorem quiescent_of_probed {queue : CommandQueue ι} {caller : IdleCaller}
    {rest : Multiset (Task ι)} {before : List (Observation ι)}
    (run
      : (commandSystem ι).Reaches
          (.start (CommandQueue.build dlqSize storage laneConfigs order))
          ⟨queue, Task.probing caller [] ::ₘ rest, before⟩)
    (checked : (Task.probing caller []).Checked queue caller)
    : Quiescent (⟨queue, rest, before ++ [Task.foundIdle caller]⟩ : CommandPool ι) := by
  obtain ⟨drained, probed⟩ := checked rfl
  have ended
      : (commandSystem ι).Reaches
          (.start (CommandQueue.build dlqSize storage laneConfigs order))
          ⟨queue, (([] : List (Task ι)) : Multiset (Task ι)) + rest,
            before ++ [Task.foundIdle caller]⟩ :=
    .tail (a := .run (.probing caller []) _) run trivial (.run .idle)
  rw [Multiset.coe_nil, zero_add] at ended
  refine quiescent_of_idle ended drained.none ?_
  intro handle registered
  exact (probed handle registered).resolve_left (List.not_mem_nil)

end Runs

section Example

/-- A shutdown of an empty queue, up to the end of the scheduler's last probe. -/
theorem oneLane_probed
    : ∃ queue shown,
        OneLaneRun ⟨queue, ([Task.probing .scheduler []] : List (Task Unit)), shown⟩
        ∧ queue.lifecycle.isShuttingDown = true := by
  have start : OneLaneRun ⟨oneLane, ([] : List (Task Unit)), []⟩ := .refl _
  have closing := start.enter .shutdown
  have closed := closing.segment .shutdown (by intro; split <;> simp)
  have scheduling := closed.enter .schedule
  have snapshot := scheduling.segment .snapshot (by simp)
  have checked := snapshot.segment .checked (by simp)
  have allChecked := checked.segment .allChecked (by simp)
  have ranked := allChecked.segment (.ranked 0 rfl) (by simp)
  have allRanked := ranked.segment .allRanked (by simp)
  have acquired := allRanked.segment (.acquired 0 rfl) (by simp)
  have nothing := acquired.segment (.nothingDequeued rfl) (by simp)
  have scheduled := nothing.segment .allPolled (by simp)
  have idling := scheduled.segment (.closing rfl) (by simp)
  have probing := idling.segment (.noneOutstanding rfl) (by simp)
  have probed := probing.segment (.laneIdle rfl) (by simp)
  exact ⟨_, _, probed, rfl⟩

end Example

end Lane
