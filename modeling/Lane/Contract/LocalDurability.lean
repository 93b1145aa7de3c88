import Lane.Job.Snapshot
import Lane.Library.Publication

/-! The filesystem-backed queue is durable: once every operation has returned Ok, the
snapshot file is the snapshot of the in-memory state, as long as every rename publishes the
newest snapshot.
-/

namespace Lane

open Publisher

-----------------------------------------------------------------------------------------
-- The operations of the local queue
-----------------------------------------------------------------------------------------

/-- What `LocalJobQueue` does after its in-memory step. A refused operation returns at once,
but `obliterate` persists before it returns its result, and a promotion or a recovery that
found no job persists nothing.
-/
def persistence (cron : Cron) (queue : QueueName) (s : InMemoryJobQueueState) (call : Call)
    : Outcome :=
  match call.op with
  | .obliterate force => .published (s.obliterate force).2.isOk
  | .promoteDueJobs now => if (s.promoteDueLocked now).2 > 0 then .published true else .quiet
  | .recoverStalledJobs now =>
      match (s.recoverStalledJobs now).2 with
      | .ok recovered => if recovered > 0 then .published true else .quiet
      | .error _ => .refused
  | op => if (perform cron call.find queue s op).2.isOk then .published true else .refused

namespace InMemoryJobQueueState

variable {s : InMemoryJobQueueState} {now : DateTime} {queue : QueueName}

/-- One promotion counts its job, or finds none and changes nothing that is written. -/
theorem promoteDueJob_counts (now : DateTime) (queue : QueueName) (s : InMemoryJobQueueState) (promoted : Nat) (dueJob : Job)
    : (promoteDueJob now (s, promoted) dueJob).2 = promoted + 1
      ∨ (promoteDueJob now (s, promoted) dueJob).2 = promoted
        ∧ (promoteDueJob now (s, promoted) dueJob).1.snapshot queue = s.snapshot queue := by
  unfold promoteDueJob
  simp only
  split
  · exact .inr ⟨rfl, rfl⟩
  · exact .inl rfl

/-- Promotions never count backwards, and those that count no job change nothing that is
written, by induction on the due jobs.
-/
theorem promoteDueJobs_counts (dueJobs : List Job) (s : InMemoryJobQueueState) (promoted : Nat)
    : promoted ≤ (dueJobs.foldl (promoteDueJob now) (s, promoted)).2
      ∧ ((dueJobs.foldl (promoteDueJob now) (s, promoted)).2 = promoted
        → (dueJobs.foldl (promoteDueJob now) (s, promoted)).1.snapshot queue = s.snapshot queue) := by
  induction dueJobs generalizing s promoted with
  | nil => exact ⟨le_rfl, fun _ => rfl⟩
  | cons job rest ih =>
      rw [List.foldl_cons]
      have first := promoteDueJob_counts now queue s promoted job
      generalize promoteDueJob now (s, promoted) job = result at first ⊢
      obtain ⟨middle, counted⟩ := result
      obtain ⟨grows, same⟩ := ih middle counted
      rcases first with more | ⟨rfl, shown⟩
      · dsimp only at more
        exact ⟨by omega, fun none => by omega⟩
      · exact ⟨grows, fun none => (same none).trans shown⟩

theorem snapshot_promoteDueLocked (none : (s.promoteDueLocked now).2 = 0)
    : (s.promoteDueLocked now).1.snapshot queue = s.snapshot queue :=
  (promoteDueJobs_counts _ s 0).2 none

/-- A recovery that found no stalled job changes nothing. -/
theorem recoverStalledJobs_of_none (none : s.stalledJobs now = [])
    : (s.recoverStalledJobs now).1 = s := by
  simp [recoverStalledJobs, none, sweepStalled, removeJobRecords]

end InMemoryJobQueueState

/-- The local queue publishes the snapshots of its in-memory queue. -/
def localQueue (cron : Cron) (queue : QueueName)
    : Publisher InMemoryJobQueueState JobQueueSnapshot Call where
  mutate s call := (step cron call.find queue s call.op, persistence cron queue s call)
  snapshot := InMemoryJobQueueState.snapshot queue
  quiet := by
    intro s call silent
    simp only [persistence] at silent
    split at silent
    · cases silent
    · next now operation =>
        split at silent
        · cases silent
        · next none =>
            simp only [operation]
            exact InMemoryJobQueueState.snapshot_promoteDueLocked (by omega)
    · next now operation =>
        split at silent
        · next recovered counted =>
            split at silent
            · cases silent
            · next none =>
                have same : recovered = (s.stalledJobs now).length := (Except.ok.inj counted).symm
                simp only [operation]
                congr 1
                refine InMemoryJobQueueState.recoverStalledJobs_of_none ?_
                exact List.eq_nil_of_length_eq_zero (by omega)
        · cases silent
    · split at silent <;> cases silent

-----------------------------------------------------------------------------------------
-- Durability
-----------------------------------------------------------------------------------------

/-- In a run whose renames publish the newest snapshot, the file never falls behind an
acknowledged operation, and once all operations have returned Ok it is the snapshot of the
in-memory state, unless none of them has published and the state shows no change.
-/
theorem local_file_durable {ι : Type} [DecidableEq ι] {cron : Cron} {queue : QueueName}
    {memory : InMemoryJobQueueState} {file : Option JobQueueSnapshot}
    {s : Shared ι InMemoryJobQueueState JobQueueSnapshot}
    (run : (localQueue cron queue).system.Run PublishesNewest (Shared.start memory file) s)
    : KeepsAcknowledged s
      ∧ (AllAccepted s
        → (s.taken = 0 ∧ s.memory.snapshot queue = memory.snapshot queue)
          ∨ s.file.map Taken.value = some (s.memory.snapshot queue)) := by
  have durable := durable_run run
  exact ⟨durable.acknowledged, durable.published⟩

-----------------------------------------------------------------------------------------
-- A rename of an older snapshot
-----------------------------------------------------------------------------------------

/-- Two additions; the snapshot of the first is published after that of the second. -/
def overtaken : List (Move Bool Call) :=
  [ .mutate false { op := .addAt "work" .null {} 0 "first" },
    .snapshot false,
    .mutate true { op := .addAt "work" .null {} 0 "second" },
    .snapshot true, .write true, .rename true,
    .write false, .rename false ]

/-- The call has returned Ok. -/
def returnedOk {ι μ σ : Type} (s : Shared ι μ σ) (call : ι) : Bool :=
  match s.stage call with
  | .returned accepted _ => accepted
  | _ => false

/-- Both additions returned Ok, and the file holds one job of two. -/
theorem local_file_overtaken
    : ¬ ∀ (cron : Cron) (queue : QueueName)
        (s : Shared Bool InMemoryJobQueueState JobQueueSnapshot),
        (localQueue cron queue).system.Reaches (Shared.start {} none) s
        → AllAccepted s
        → s.taken ≠ 0
        → s.file.map Taken.value = some (s.memory.snapshot queue) := by
  intro durable
  have facts
      : ((moves (localQueue noCron "queue") (Shared.start {} none) overtaken).map (fun s =>
          (returnedOk s false && returnedOk s true, s.taken,
            s.file.map (fun published => published.value.jobs.length),
            (s.memory.snapshot "queue").jobs.length)))
        = some (true, 2, some 1, 2) := by
    decide +kernel
  obtain ⟨s, moved, shown⟩ := Option.map_eq_some_iff.mp facts
  simp only [Prod.mk.injEq, Bool.and_eq_true] at shown
  obtain ⟨⟨first, second⟩, taken, inFile, inMemory⟩ := shown
  have accepted : AllAccepted s := by
    intro call
    have returned : returnedOk s call = true := by cases call <;> assumption
    unfold returnedOk at returned
    split at returned
    · next stage => exact .inr ⟨_, by rw [stage, returned]⟩
    · cases returned
  have same := durable noCron "queue" s (reaches_moves moved) accepted (by omega)
  obtain ⟨published, stored, value⟩ := Option.map_eq_some_iff.mp same
  rw [stored, Option.map_some, value, inMemory] at inFile
  cases inFile

/-- The same additions, the second of which begins to persist when the first is done. -/
def consecutive : List (Move Bool Call) :=
  [ .mutate false { op := .addAt "work" .null {} 0 "first" },
    .mutate true { op := .addAt "work" .null {} 0 "second" },
    .snapshot false, .write false, .rename false,
    .snapshot true, .write true, .rename true ]

theorem local_file_durable_consecutive
    : ∃ s,
        movesInOrder (localQueue noCron "queue") (Shared.start {} none) consecutive = some s
        ∧ KeepsAcknowledged s
        ∧ (AllAccepted s
          → (s.taken = 0 ∧ s.memory.snapshot "queue" = ({} : InMemoryJobQueueState).snapshot "queue")
            ∨ s.file.map Taken.value = some (s.memory.snapshot "queue")) := by
  have moved
      : (movesInOrder (localQueue noCron "queue") (Shared.start {} none) consecutive).isSome = true := by
    decide +kernel
  obtain ⟨s, moved⟩ := Option.isSome_iff_exists.mp moved
  exact ⟨s, moved, local_file_durable (run_movesInOrder (durable_start _ _) moved)⟩

end Lane
