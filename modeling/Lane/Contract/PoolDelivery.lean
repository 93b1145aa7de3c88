import Lane.Distributed.Accounts

/-! Delivery by a worker pool: in every interleaving of callers, coordinators and workers, a command
that was accepted is in one place at a time and its result is reported once; a partition is served
in order; nothing is taken any more once a shutdown has ended; and a panic ends the service of a
partition.
-/

namespace Lane

variable {config : PartitionConfig} {uuid : String} {partitionId : PartitionId}
  {pool later : TaskPool WorkerPool PoolTask PoolEvent}

/-- A pool over a new queue, before any call. -/
def newPool (config : PartitionConfig) (uuid : String)
    : TaskPool WorkerPool PoolTask PoolEvent :=
  TaskPool.start (.new (.new config uuid))

-----------------------------------------------------------------------------------------
-- The accounts along a run
-----------------------------------------------------------------------------------------

theorem channels_run (run : workerPoolSystem.Reaches (newPool config uuid) pool)
    : ChannelAccounts pool.shared pool.shown := by
  refine TaskPool.owned_invariant (fun _ => (0 : Nat))
    (fun shared shown _ => ChannelAccounts shared shown) run (.start config uuid)
    (fun _ _ => rfl) ?_
  intro before after task next shown others _ _ _ segment accounts
  exact segment.channels accounts

theorem workers_run (run : workerPoolSystem.Reaches (newPool config uuid) pool)
    : CrewAccounts pool.shared pool.shown (pool.owned PoolTask.crew) := by
  refine TaskPool.owned_invariant PoolTask.crew CrewAccounts run (.start _) ?_ ?_
  · intro task entry
    cases entry <;> rfl
  · intro before after task next shown others reached _ _ segment accounts
    exact segment.workers (channels_run reached) accounts

theorem executions_run (run : workerPoolSystem.Reaches (newPool config uuid) pool)
    (partitionId : PartitionId)
    : ExecutionAccounts partitionId pool.shown (pool.owned (PoolTask.executingIn partitionId))
        (pool.owned (PoolTask.completingIn partitionId)) := by
  let holds (task : PoolTask) := (task.executingIn partitionId, task.completingIn partitionId)
  have accounts
      : ExecutionAccounts partitionId pool.shown (pool.owned holds).1 (pool.owned holds).2 := by
    refine TaskPool.owned_invariant holds
      (fun _ shown held => ExecutionAccounts partitionId shown held.1 held.2) run ⟨rfl, rfl⟩
      ?_ ?_
    · intro task entry
      cases entry <;> rfl
    · intro before after task next shown others _ _ _ segment accounts
      have executing
          : (next.map holds).sum.1 = (next.map (PoolTask.executingIn partitionId)).sum := by
        simpa [holds, Function.comp_def]
          using map_list_sum (AddMonoidHom.fst (Multiset CommandEnvelope)
            (Multiset (CommandEnvelope × CommandResult))) (next.map holds)
      have completing
          : (next.map holds).sum.2 = (next.map (PoolTask.completingIn partitionId)).sum := by
        simpa [holds, Function.comp_def]
          using map_list_sum (AddMonoidHom.snd (Multiset CommandEnvelope)
            (Multiset (CommandEnvelope × CommandResult))) (next.map holds)
      rw [Prod.fst_add, Prod.snd_add, executing, completing]
      exact segment.executions accounts
  have executing
      : (pool.owned holds).1 = pool.owned (PoolTask.executingIn partitionId) :=
    TaskPool.owned_map (AddMonoidHom.fst _ _) holds pool
  have completing
      : (pool.owned holds).2 = pool.owned (PoolTask.completingIn partitionId) :=
    TaskPool.owned_map (AddMonoidHom.snd _ _) holds pool
  rwa [executing, completing] at accounts

/-- The result of a command names it. -/
theorem finished_names (run : workerPoolSystem.Reaches (newPool config uuid) pool)
    : ∀ envelope result,
        .finished envelope result ∈ pool.shown → result.commandId = envelope.id := by
  refine TaskPool.owned_invariant (fun _ => (0 : Nat))
    (fun _ shown _ =>
      ∀ envelope result, .finished envelope result ∈ shown → result.commandId = envelope.id)
    run (fun _ _ member => absurd member List.not_mem_nil) (fun _ _ => rfl) ?_
  intro before after task next shown others _ _ _ segment names envelope result member
  rcases List.mem_append.mp member with old | new
  · exact names envelope result old
  · cases segment <;> simp only [List.mem_singleton, List.not_mem_nil, reduceCtorEq] at new
    cases new
    rfl

-----------------------------------------------------------------------------------------
-- Conservation
-----------------------------------------------------------------------------------------

/-- In every interleaving, a command that was accepted waits in its partition, is being executed,
was executed, or was lost to a panic of its execution; an execution has one result, which names
its command and is reported once; and what was reported was collected, oldest first, or waits.
-/
theorem accepted_commands_conserved (run : workerPoolSystem.Reaches (newPool config uuid) pool)
    (partitionId : PartitionId)
    : (pool.shown.flatMap (PoolEvent.enqueuedTo partitionId) : Multiset CommandEnvelope)
        = pool.shared.queue.waiting partitionId
          + pool.owned (PoolTask.executingIn partitionId)
          + (pool.shown.flatMap (PoolEvent.finishedIn partitionId)).map Prod.fst
          + pool.shown.flatMap (PoolEvent.panickedIn partitionId)
      ∧ (pool.shown.flatMap (PoolEvent.finishedIn partitionId)
          : Multiset (CommandEnvelope × CommandResult))
        = pool.owned (PoolTask.completingIn partitionId)
          + pool.shown.flatMap (PoolEvent.reportedIn partitionId)
      ∧ pool.shown.flatMap PoolEvent.reportedResult
        = pool.shown.flatMap PoolEvent.collectedResult ++ pool.shared.queue.results.buffer
      ∧ ∀ envelope result,
          .finished envelope result ∈ pool.shown → result.commandId = envelope.id := by
  have channels := channels_run run
  have executions := executions_run run partitionId
  refine ⟨?_, executions.completed, channels.results, finished_names run⟩
  rw [channels.ordered, ← Multiset.coe_add, executions.taken]
  abel

-----------------------------------------------------------------------------------------
-- Order
-----------------------------------------------------------------------------------------

/-- A crew holds no more commands of a partition than it has workers for it. -/
theorem card_inHand (partitionId : PartitionId) {crew : Multiset PoolTask}
    (home : ∀ task ∈ crew, task.AtHome)
    : (crew.map (PoolTask.inHand partitionId)).sum.card
      ≤ crew.countP (fun task => task.worksFor partitionId) := by
  induction crew using Multiset.induction_on with
  | empty => exact Nat.zero_le _
  | cons task rest ih =>
      have others := ih (fun other within => home other (Multiset.mem_cons_of_mem within))
      rw [Multiset.map_cons, Multiset.sum_cons, Multiset.card_add, Multiset.countP_cons]
      by_cases works : task.worksFor partitionId = true
      · have one : (task.inHand partitionId).card ≤ 1 := by
          cases task with
          | executing id envelope | completing id envelope result =>
              simp only [PoolTask.inHand]
              split
              · exact Nat.le_refl 1
              · exact Nat.zero_le 1
          | _ => exact Nat.zero_le 1
        rw [if_pos works]
        omega
      · have none : task.inHand partitionId = 0 :=
          PoolTask.inHand_eq_zero (home task (Multiset.mem_cons_self _ _)) (by simpa using works)
        rw [none, if_neg works, Multiset.card_zero]
        omega

/-- What the workers of a pool hold is what all its tasks hold. -/
theorem owned_inHand
    : ((pool.owned PoolTask.crew).map (PoolTask.inHand partitionId)).sum
      = pool.owned (PoolTask.inHand partitionId) := by
  unfold TaskPool.owned
  induction pool.tasks using Multiset.induction_on with
  | empty => rfl
  | cons task rest ih =>
      rw [Multiset.map_cons, Multiset.sum_cons, Multiset.map_add, Multiset.sum_add, ih,
        Multiset.map_cons, Multiset.sum_cons]
      congr 1
      cases task <;> simp [PoolTask.crew, PoolTask.isWorker, PoolTask.inHand]

/-- In a pool that was started once, at most one command of a partition is in a worker's hands, and
the commands of the partition end in the order in which they were accepted.
-/
theorem partition_in_order (run : workerPoolSystem.Reaches (newPool config uuid) pool)
    (once : starts pool.shown ≤ 1) (partitionId : PartitionId)
    : ∃ held : List CommandEnvelope,
        (held : Multiset CommandEnvelope) = pool.owned (PoolTask.inHand partitionId)
        ∧ held.length ≤ 1
        ∧ pool.shown.flatMap (PoolEvent.enqueuedTo partitionId)
          = pool.shown.flatMap (PoolEvent.endedIn partitionId)
            ++ held
            ++ pool.shared.queue.waiting partitionId := by
  have workers := workers_run run
  obtain ⟨held, hands, order⟩ := workers.ordered once partitionId
  refine ⟨held, hands.trans owned_inHand, ?_, ?_⟩
  · have few := workers.few partitionId
    have cards := card_inHand partitionId workers.home
    rw [← hands, Multiset.coe_card] at cards
    omega
  · rw [(channels_run run).ordered, order]

-----------------------------------------------------------------------------------------
-- Shutdown
-----------------------------------------------------------------------------------------

/-- A worker that has read the flag and goes on to take a command of the partition. -/
def PoolTask.takesFrom (partitionId : PartitionId) : PoolTask → Nat
  | .dequeuing id => if id = partitionId then 1 else 0
  | _ => 0

/-- After the flag is set no worker goes on to take a command, and who takes one had gone on. -/
theorem PoolSegment.draining {shared after : WorkerPool} {task : PoolTask}
    {next : List PoolTask} {shown more : List PoolEvent}
    (segment : PoolSegment shared task after next more)
    (channels : ChannelAccounts shared shown) (shutting : shared.shutdown = true)
    (partitionId : PartitionId) (others : Nat)
    : after.shutdown = true
      ∧ ((shown ++ more).flatMap (PoolEvent.dequeuedFrom partitionId)).length
          + ((next.map (PoolTask.takesFrom partitionId)).sum + others)
        ≤ (shown.flatMap (PoolEvent.dequeuedFrom partitionId)).length
          + (task.takesFrom partitionId + others) := by
  rw [List.flatMap_append, List.length_append]
  cases segment with
  | goesOn running =>
      rw [shutting] at running
      cases running
  | started =>
      refine ⟨shutting, ?_⟩
      simp [PoolEvent.dequeuedFrom, PoolTask.takesFrom, Function.comp_def]
  | dequeued dequeues =>
      rename_i taking envelope queue
      refine ⟨shutting, ?_⟩
      have own : envelope.partitionId = taking := by
        refine channels.home taking envelope ?_
        rw [(LocalDistributedQueue.dequeue_some dequeues).1 taking]
        simp
      by_cases here : taking = partitionId
      · simp [PoolEvent.dequeuedFrom, PoolTask.takesFrom, own, here, Nat.add_assoc]
      · simp [PoolEvent.dequeuedFrom, PoolTask.takesFrom, own, here]
  | shutdown => exact ⟨rfl, by simp [PoolTask.takesFrom]⟩
  | _ => exact ⟨shutting, by simp [PoolEvent.dequeuedFrom, PoolTask.takesFrom]⟩

/-- While a pool shuts down, what it takes from a partition is bounded by the workers that had gone
on when the flag was set.
-/
theorem draining_run (reached : workerPoolSystem.Reaches (newPool config uuid) pool)
    (shutting : pool.shared.shutdown = true) (run : workerPoolSystem.Reaches pool later)
    (partitionId : PartitionId)
    : (later.shown.flatMap (PoolEvent.dequeuedFrom partitionId)).length
        + later.owned (PoolTask.takesFrom partitionId)
      ≤ (pool.shown.flatMap (PoolEvent.dequeuedFrom partitionId)).length
        + pool.owned (PoolTask.takesFrom partitionId) := by
  refine
    (run.invariant
      (fun middle =>
        workerPoolSystem.Reaches (newPool config uuid) middle
        ∧ middle.shared.shutdown = true
        ∧ (middle.shown.flatMap (PoolEvent.dequeuedFrom partitionId)).length
            + middle.owned (PoolTask.takesFrom partitionId)
          ≤ (pool.shown.flatMap (PoolEvent.dequeuedFrom partitionId)).length
            + pool.owned (PoolTask.takesFrom partitionId))
      ⟨reached, shutting, Nat.le_refl _⟩ ?_).2.2
  rintro before move after ⟨reached, shutting, bounded⟩ _ step
  refine ⟨reached.tail trivial step, ?_⟩
  cases step with
  | enter enters =>
      refine ⟨shutting, ?_⟩
      unfold TaskPool.owned at bounded ⊢
      cases enters <;> simpa [PoolTask.takesFrom] using bounded
  | run runs =>
      unfold TaskPool.owned at bounded ⊢
      rw [Multiset.map_cons, Multiset.sum_cons] at bounded
      rw [Multiset.map_add, Multiset.sum_add, Multiset.map_coe, Multiset.sum_coe]
      refine ⟨(runs.draining (channels_run reached) shutting partitionId 0).1, ?_⟩
      exact le_trans (runs.draining (channels_run reached) shutting partitionId _).2 bounded

/-- Who goes on to take a command of a partition is one of its workers. -/
theorem takesFrom_le (pool : TaskPool WorkerPool PoolTask PoolEvent)
    (partitionId : PartitionId)
    : pool.owned (PoolTask.takesFrom partitionId)
      ≤ (pool.owned PoolTask.crew).countP (fun task => task.worksFor partitionId) := by
  unfold TaskPool.owned
  induction pool.tasks using Multiset.induction_on with
  | empty => exact Nat.le_refl 0
  | cons task rest ih =>
      rw [Multiset.map_cons, Multiset.sum_cons, Multiset.map_cons, Multiset.sum_cons,
        Multiset.countP_add]
      refine Nat.add_le_add ?_ ih
      cases task with
      | dequeuing id =>
          change _ ≤ (PoolTask.dequeuing id ::ₘ 0).countP _
          rw [Multiset.countP_cons, Multiset.countP_zero, zero_add]
          by_cases here : id = partitionId <;>
            simp [PoolTask.takesFrom, PoolTask.worksFor, here]
      | _ => exact Nat.zero_le _

/-- Where no worker is left, nothing is owned that only workers own. -/
theorem owned_of_ended {M : Type*} [AddCommMonoid M] {owns : PoolTask → M}
    (workers : ∀ task, task.isWorker = false → owns task = 0)
    (ended : pool.owned PoolTask.crew = 0)
    : pool.owned owns = 0 := by
  refine Multiset.sum_eq_zero (fun value member => ?_)
  obtain ⟨task, within, rfl⟩ := Multiset.mem_map.mp member
  refine workers task ?_
  obtain ⟨rest, split⟩ := Multiset.exists_cons_of_mem within
  unfold TaskPool.owned at ended
  rw [split, Multiset.map_cons, Multiset.sum_cons] at ended
  have cards := congrArg Multiset.card ended
  rw [Multiset.card_add, Multiset.card_zero] at cards
  cases known : task.isWorker with
  | false => rfl
  | true =>
      simp [PoolTask.crew, known] at cards

/-- A shutdown takes at most one more command from each partition of a pool that was started once,
and when its workers have ended, every command that was or will ever be accepted was reported by
then, was lost to a panic by then, or waits in its partition for good.
-/
theorem shutdown_ends_service (reached : workerPoolSystem.Reaches (newPool config uuid) pool)
    (shutting : pool.shared.shutdown = true) (run : workerPoolSystem.Reaches pool later)
    (partitionId : PartitionId)
    : (starts pool.shown ≤ 1
        → (later.shown.flatMap (PoolEvent.dequeuedFrom partitionId)).length
          ≤ (pool.shown.flatMap (PoolEvent.dequeuedFrom partitionId)).length + 1)
      ∧ (pool.shared.alive = 0
        → (later.shown.flatMap (PoolEvent.enqueuedTo partitionId) : Multiset CommandEnvelope)
          = (pool.shown.flatMap (PoolEvent.reportedIn partitionId)).map Prod.fst
            + pool.shown.flatMap (PoolEvent.panickedIn partitionId)
            + later.shared.queue.waiting partitionId) := by
  have workers := workers_run reached
  have drained := draining_run reached shutting run partitionId
  have takers := takesFrom_le pool partitionId
  refine ⟨fun once => ?_, fun ended => ?_⟩
  · have few := workers.few partitionId
    omega
  · have nobody : pool.owned PoolTask.crew = 0 :=
      Multiset.card_eq_zero.mp (workers.alive.symm.trans ended)
    rw [nobody, Multiset.countP_zero] at takers
    have bounded
        : (later.shown.flatMap (PoolEvent.dequeuedFrom partitionId)).length
          ≤ (pool.shown.flatMap (PoolEvent.dequeuedFrom partitionId)).length := by
      omega
    have executions := executions_run reached partitionId
    have same
        : pool.shown.flatMap (PoolEvent.dequeuedFrom partitionId)
          = later.shown.flatMap (PoolEvent.dequeuedFrom partitionId) :=
      ((TaskPool.shown_prefix run).flatMap _).eq_of_length_le bounded
    have executing : pool.owned (PoolTask.executingIn partitionId) = 0 :=
      owned_of_ended (fun task aside => by cases task <;> trivial) nobody
    have completing : pool.owned (PoolTask.completingIn partitionId) = 0 :=
      owned_of_ended (fun task aside => by cases task <;> trivial) nobody
    have taken := executions.taken
    have completed := executions.completed
    rw [executing, zero_add] at taken
    rw [completing, zero_add, Multiset.coe_eq_coe] at completed
    rw [(channels_run (reached.trans run)).ordered, ← same, ← Multiset.coe_add, taken,
      Multiset.coe_eq_coe.mpr (completed.map Prod.fst)]

-----------------------------------------------------------------------------------------
-- Panics
-----------------------------------------------------------------------------------------

/-- Only a worker of its partition takes a command. -/
theorem PoolSegment.takes {shared after : WorkerPool} {task : PoolTask}
    {next : List PoolTask} {shown more : List PoolEvent}
    (segment : PoolSegment shared task after next more)
    (channels : ChannelAccounts shared shown)
    (aside : task.crew.countP (fun task => task.worksFor partitionId) = 0)
    : more.flatMap (PoolEvent.dequeuedFrom partitionId) = [] := by
  cases segment with
  | dequeued dequeues =>
      rename_i taking envelope queue
      have own : envelope.partitionId = taking := by
        refine channels.home taking envelope ?_
        rw [(LocalDistributedQueue.dequeue_some dequeues).1 taking]
        simp
      have other : ¬taking = partitionId := by
        simpa [PoolTask.worksFor] using
          Multiset.countP_eq_zero.mp aside (.dequeuing taking) (Multiset.mem_singleton_self _)
      simp [PoolEvent.dequeuedFrom, own, other]
  | _ => rfl

/-- A panic of an execution ends the service of its partition: in a pool that was started once no
command of the partition is taken after it, and what is accepted for it waits for good.
-/
theorem panic_ends_partition (reached : workerPoolSystem.Reaches (newPool config uuid) pool)
    (partitionId : PartitionId)
    (panicked : pool.shown.flatMap (PoolEvent.panickedIn partitionId) ≠ [])
    (run : workerPoolSystem.Reaches pool later) (once : starts later.shown ≤ 1)
    : later.shown.flatMap (PoolEvent.enqueuedTo partitionId)
      = pool.shown.flatMap (PoolEvent.dequeuedFrom partitionId)
        ++ later.shared.queue.waiting partitionId := by
  have kept :=
    run.invariant
      (fun middle =>
        workerPoolSystem.Reaches (newPool config uuid) middle
        ∧ pool.shown <+: middle.shown
        ∧ (starts middle.shown ≤ 1
          → middle.shown.flatMap (PoolEvent.dequeuedFrom partitionId)
            = pool.shown.flatMap (PoolEvent.dequeuedFrom partitionId)))
      ⟨reached, List.prefix_refl _, fun _ => rfl⟩
      (by
        rintro before move after ⟨reached, earlier, same⟩ _ step
        refine ⟨reached.tail trivial step, ?_⟩
        cases step with
        | enter enters => exact ⟨earlier, same⟩
        | @run shared afterwards task rest next before more runs =>
            refine ⟨earlier.trans (List.prefix_append _ _), fun once => ?_⟩
            rw [starts_append] at once
            have first : starts before ≤ 1 := by omega
            have few : _ ≤ starts before := (workers_run reached).few partitionId
            have lost := (earlier.flatMap (PoolEvent.panickedIn partitionId)).length_le
            have some := List.length_pos_iff.mpr panicked
            have none : task.crew.countP (fun task => task.worksFor partitionId) = 0 := by
              unfold TaskPool.owned at few
              rw [Multiset.map_cons, Multiset.sum_cons, Multiset.countP_add] at few
              omega
            rw [List.flatMap_append, runs.takes (channels_run reached) none, List.append_nil]
            exact same first)
  rw [(channels_run kept.1).ordered, kept.2.2 once]

-----------------------------------------------------------------------------------------
-- A pool with one partition
-----------------------------------------------------------------------------------------

section Example

open TaskPool

/-- A command for the only partition. -/
def onlyCommand : CommandEnvelope :=
  { id := "command"
    commandType := "test"
    laneId := "lane"
    partitionId := 0
    payload := .null
    retryCount := 0
    createdAt := 0 }

/-- A pool with one worker that has taken the only command. -/
theorem onlyCommand_taken
    : ∃ shared : WorkerPool,
        workerPoolSystem.Reaches (newPool (.roundRobin 1) "w")
          ⟨shared, ([.executing 0 onlyCommand] : List PoolTask),
            [.started, .enqueued onlyCommand, .dequeued onlyCommand]⟩
        ∧ shared.alive = 1
        ∧ shared.shutdown = false := by
  have fresh
      : workerPoolSystem.Reaches (newPool (.roundRobin 1) "w")
          ⟨.new (.new (.roundRobin 1) "w"), ([] : List PoolTask), []⟩ :=
    .refl _
  have starting := run_enter fresh .start trivial
  have started := run_segment starting .started trivial
  have calling := run_enter started (.enqueue onlyCommand) trivial
  have enqueued := run_segment calling (.enqueued rfl) trivial
  have polling := run_segment enqueued (.goesOn rfl) trivial
  have taken := run_segment polling (.dequeued rfl) trivial
  exact ⟨_, taken, rfl, rfl⟩

theorem accepted_commands_conserved_taken
    : ∃ pool,
        workerPoolSystem.Reaches (newPool (.roundRobin 1) "w") pool
        ∧ (pool.shown.flatMap (PoolEvent.enqueuedTo 0) : Multiset CommandEnvelope)
          = pool.shared.queue.waiting 0
            + pool.owned (PoolTask.executingIn 0)
            + (pool.shown.flatMap (PoolEvent.finishedIn 0)).map Prod.fst
            + pool.shown.flatMap (PoolEvent.panickedIn 0) := by
  obtain ⟨shared, run, _⟩ := onlyCommand_taken
  exact ⟨_, run, (accepted_commands_conserved run 0).1⟩

theorem partition_in_order_taken
    : ∃ pool, ∃ held : List CommandEnvelope,
        workerPoolSystem.Reaches (newPool (.roundRobin 1) "w") pool
        ∧ (held : Multiset CommandEnvelope) = pool.owned (PoolTask.inHand 0)
        ∧ [onlyCommand] = [] ++ held ++ pool.shared.queue.waiting 0 := by
  obtain ⟨shared, run, _⟩ := onlyCommand_taken
  obtain ⟨held, hands, _, order⟩ := partition_in_order run (Nat.le_refl 1) 0
  exact ⟨_, held, run, hands, order⟩

/-- The execution of the only command panics. -/
theorem panic_ends_partition_taken
    : ∃ pool,
        workerPoolSystem.Reaches (newPool (.roundRobin 1) "w") pool
        ∧ [onlyCommand] = [onlyCommand] ++ pool.shared.queue.waiting 0 := by
  obtain ⟨shared, taken, _⟩ := onlyCommand_taken
  have panicked := run_segment taken .panicked trivial
  exact ⟨_, panicked,
    panic_ends_partition panicked 0 (List.cons_ne_nil onlyCommand []) (.refl _)
      (Nat.le_refl 1)⟩

/-- A shutdown after the panic finds no worker. -/
theorem shutdown_ends_service_panicked
    : ∃ pool,
        workerPoolSystem.Reaches (newPool (.roundRobin 1) "w") pool
        ∧ ([onlyCommand] : Multiset CommandEnvelope)
          = ([] : List CommandEnvelope) + [onlyCommand] + pool.shared.queue.waiting 0 := by
  obtain ⟨shared, taken, one, _⟩ := onlyCommand_taken
  have panicked := run_segment taken .panicked trivial
  have closing := run_segment (run_enter panicked .shutdown trivial) .shutdown trivial
  have ends := shutdown_ends_service closing rfl (.refl _) 0
  exact ⟨_, closing, ends.2 (by simp [one])⟩

end Example

end Lane
