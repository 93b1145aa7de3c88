import Lane.Board.Changes

/-! Runs of the queue whose clock never goes back. -/

namespace Lane

/-- The queue with the latest time that was read: an operation runs at a time from the one
before it to the one after it.
-/
def timedQueueSystem (cron : Cron) (queue : QueueName)
    : LabelledSystem (InMemoryJobQueueState × DateTime) Call where
  Step before call after :=
    FreshIds before.1 call.op
      ∧ after.1 = step cron call.find queue before.1 call.op
      ∧ before.2 ≤ after.2
      ∧ ∀ now, call.op.time = some now → before.2 ≤ now ∧ now ≤ after.2

/-- Every call reads a clock, and no reading is before the one ahead of it. -/
def InOrder : DateTime → List Call → Prop
  | _, [] => True
  | before, call :: rest =>
      (call.op.time.any (before ≤ ·) = true) ∧ InOrder (call.op.time.getD before) rest

instance decidableInOrder : (before : DateTime) → (calls : List Call) → Decidable (InOrder before calls)
  | _, [] => isTrue trivial
  | before, call :: rest =>
      have := decidableInOrder (call.op.time.getD before) rest
      inferInstanceAs (Decidable (_ ∧ _))

/-- The time that the last of the calls reads. -/
def lastTime (start : DateTime) (calls : List Call) : DateTime :=
  calls.foldl (fun before call => call.op.time.getD before) start

/-- Serving allowed calls in order of their times is a run of the timed system. -/
theorem timedRun_serve {cron : Cron} {queue : QueueName}
    {allow : InMemoryJobQueueState → Call → Prop} {s : InMemoryJobQueueState} {before : DateTime}
    {calls : List Call} (allowed : AllowedCalls cron queue allow s calls)
    (order : InOrder before calls)
    : (timedQueueSystem cron queue).Run (fun state call => allow state.1 call) (s, before)
        (serve cron queue s calls, lastTime before calls) := by
  induction calls generalizing s before with
  | nil => exact .refl _
  | cons call rest ih =>
      refine LabelledSystem.Run.trans (.single (a := call) allowed.1.1 ?_) (ih allowed.2 order.2)
      obtain ⟨now, known, later⟩ := (Option.any_eq_true _ _).mp order.1
      have ordered : before ≤ now := by simpa using later
      refine ⟨allowed.1.2, rfl, ?_, ?_⟩
      · simpa [known] using ordered
      · intro reading same
        obtain rfl := Option.some.inj (known.symm.trans same)
        exact ⟨ordered, by simp [known]⟩

end Lane
