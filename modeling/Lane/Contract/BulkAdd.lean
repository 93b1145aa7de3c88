import Lane.Job.Step

/-! Bulk submission: a batch whose specs are all valid is added as if its members were added one
after the other, and any other batch changes nothing.
-/

namespace Lane

namespace InMemoryJobQueueState

variable {cron : Cron} {find : Find} {queue : QueueName} {s : InMemoryJobQueueState}
  {now : DateTime}

-----------------------------------------------------------------------------------------
-- One after the other
-----------------------------------------------------------------------------------------

/-- The specs of a batch added one after the other, with the ids generated for them. -/
def addEachAt (cron : Cron) (find : Find) (queue : QueueName) (now : DateTime)
    (s : InMemoryJobQueueState)
    : List (JobSpec × JobId) → InMemoryJobQueueState × List (Result Job)
  | [] => (s, [])
  | (spec, uuid) :: rest =>
      let (s, added) := s.addAt cron find queue spec.name spec.payload spec.options now uuid
      let (s, later) := s.addEachAt cron find queue now rest
      (s, added :: later)

/-- The loop of a valid batch adds its members one after the other, by induction on the batch. -/
theorem submitAllLocked_eq_addEachAt (specs : List (JobSpec × JobId))
    (valid : Validates cron now specs)
    : s.addEachAt cron find queue now specs
      = ((s.submitAllLocked find now (specs.map (jobOfSpec queue now))).1,
          (s.submitAllLocked find now (specs.map (jobOfSpec queue now))).2.map .ok) := by
  induction specs generalizing s with
  | nil => rfl
  | cons entry rest ih =>
      obtain ⟨first, later⟩ := List.forall_mem_cons.mp valid
      have added : s.addAt cron find queue entry.1.name entry.1.payload entry.1.options now entry.2
          = ((s.submitLocked insertSequenced find (jobOfSpec queue now entry) now).1,
              .ok (s.submitLocked insertSequenced find (jobOfSpec queue now entry) now).2) := by
        unfold addAt
        rw [first, insertSequenced_eq_insertCreated]
        rfl
      simp only [addEachAt, List.map_cons, submitAllLocked]
      rw [added, ih later]

/-- A valid batch gives the results, the state and the events of its members added one after the
other; a batch with an invalid spec fails and changes nothing.
-/
theorem addManyAt_eq_addEachAt (s : InMemoryJobQueueState) (specs : List (JobSpec × JobId))
    : (Validates cron now specs
        → ∃ added,
            s.addManyAt cron find queue specs now
              = ((s.addEachAt cron find queue now specs).1, .ok added)
            ∧ (s.addEachAt cron find queue now specs).2 = added.map .ok)
      ∧ (¬ Validates cron now specs
        → ∃ error, s.addManyAt cron find queue specs now = (s, .error error)) := by
  constructor
  · intro valid
    refine ⟨(s.submitAllLocked find now (specs.map (jobOfSpec queue now))).2, ?_, ?_⟩
    · unfold addManyAt
      rw [(validateSpecsAt_ok_iff specs).mpr valid, submitAllLocked_eq_addEachAt specs valid]
    · rw [submitAllLocked_eq_addEachAt specs valid]
  · intro invalid
    unfold addManyAt
    cases validated : validateSpecsAt cron now specs with
    | error error => exact ⟨error, rfl⟩
    | ok => exact absurd ((validateSpecsAt_ok_iff specs).mp validated) invalid

/-- Two specs with the same job id. -/
def sameIds : List (JobSpec × JobId) :=
  [({ name := "first", options := { jobId := some "mail" } }, "a"),
    ({ name := "second", options := { jobId := some "mail" } }, "b")]

theorem addManyAt_eq_addEachAt_sameIds
    : ∃ added,
        InMemoryJobQueueState.addManyAt noCron .first "jobs" {} sameIds 0
          = ((InMemoryJobQueueState.addEachAt noCron .first "jobs" 0 {} sameIds).1, .ok added)
        ∧ (InMemoryJobQueueState.addEachAt noCron .first "jobs" 0 {} sameIds).2
          = added.map .ok := by
  refine (addManyAt_eq_addEachAt {} sameIds).1 ?_
  unfold Validates sameIds
  simp only [List.forall_mem_cons, List.not_mem_nil, false_implies, implies_true, and_true]
  constructor <;> decide +kernel

end InMemoryJobQueueState

end Lane
