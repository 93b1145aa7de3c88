import Lane.Contract.DeduplicationOwnership
import Lane.Life.Coherence
import Lane.Life.Processing

/-! Punctuality: as long as the clock never goes back, no job waits or runs before its schedule. -/

namespace Lane

/-- A life that waits or runs is scheduled no later than `latest`. -/
def Life.Punctual (latest : DateTime) (l : Life) : Prop :=
  l.state = .waiting ∨ l.state = .active → l.scheduledAt ≤ latest

section Turns

variable {o : Occasion} {a b : Lives} {marks : List Mark} {latest later : DateTime} {l : Life}

theorem Life.Punctual.mono (punctual : l.Punctual latest) (order : latest ≤ later)
    : l.Punctual later :=
  fun started => le_trans (punctual started) order

theorem Occasion.Due.punctual {scheduledAt : DateTime} (due : o.Due scheduledAt)
    (reads : ∀ now, o.reads now → now ≤ latest)
    : scheduledAt ≤ latest := by
  obtain ⟨now, isRead, reached⟩ := due
  exact le_trans reached (reads now isRead)

/-- A turn keeps every life punctual at any time that is not before its reads, by cases on the
turn: a life starts to wait when it is due, or it was running.
-/
theorem Turn.punctual (turn : Turn o a marks b) (every : a.Every (Life.Punctual latest))
    (reads : ∀ now, o.reads now → now ≤ latest)
    : b.Every (Life.Punctual latest) := by
  have put {a : Lives} {id : JobId} {after : Life} (every : a.Every (Life.Punctual latest))
      (punctual : after.Punctual latest)
      : (a.set id (some after)).Every (Life.Punctual latest) :=
    every.set (fun l same => Option.some.inj same ▸ punctual)
  have idle {after : Life} (unstarted : after.state ≠ .waiting ∧ after.state ≠ .active)
      : after.Punctual latest := by
    rintro (waiting | active)
    · exact absurd waiting unstarted.1
    · exact absurd active unstarted.2
  cases turn with
  | @claimed _ l _ _ _ found waiting => exact put every (fun _ => every _ l found (.inl waiting))
  | @renewed _ l _ found active => exact put every (fun _ => every _ l found (.inr active))
  | completed _ _ _ ended => exact put every (idle (by simp [ended.1]))
  | failed _ _ _ ended => exact put every (idle (by simp [ended.1]))
  | queued found _ _ _ due =>
      refine put every.draw (fun _ => ?_)
      rcases due with due | ⟨active, same⟩
      · exact due.punctual reads
      · rw [same]
        exact every _ _ found (.inr active)
  | released _ _ _ _ due => exact put every (fun _ => due.punctual reads)
  | shelved _ _ _ shelved =>
      refine put every (idle ?_)
      rcases shelved with state | state <;> simp [state]
  | @reprioritized _ l _ _ found waiting =>
      exact put every.draw (fun _ => every _ l found (.inl waiting))
  | @reordered _ l _ _ found idle => exact put every (every _ l found)
  | entered _ _ _ due => exact put every.draw (fun _ => due.punctual reads)
  | planned _ _ planned =>
      refine put every (idle ?_)
      rcases planned with state | state <;> simp [state]
  | dropped => exact every.removed
  | obliterated => exact Lives.every_of_empty (fun _ => rfl)

theorem Turns.punctual (turns : Turns o a marks b) (every : a.Every (Life.Punctual latest))
    (reads : ∀ now, o.reads now → now ≤ latest)
    : b.Every (Life.Punctual latest) := by
  induction turns with
  | nil => exact every
  | cons first _ ih => exact ih (first.punctual every reads)

end Turns

-----------------------------------------------------------------------------------------
-- Runs whose readings never go back
-----------------------------------------------------------------------------------------

/-- The queue with the latest reading of the clock: every reading of an operation lies between
the latest one before it and the latest one after it.
-/
def clockedQueueSystem (cron : Cron) (queue : QueueName)
    : LabelledSystem (InMemoryJobQueueState × DateTime) Call where
  Step before call after :=
    (queueSystem cron queue).Step before.1 call after.1
      ∧ before.2 ≤ after.2
      ∧ ∀ now, before.1.Reads call.find call.op now → before.2 ≤ now ∧ now ≤ after.2

open InMemoryJobQueueState in
theorem punctual_run {cron : Cron} {queue : QueueName} {s : InMemoryJobQueueState}
    {start latest : DateTime}
    (run : (clockedQueueSystem cron queue).Reaches ({}, start) (s, latest))
    : s.lives.Every (Life.Punctual latest) := by
  refine run.invariant (fun state => state.1.lives.Every (Life.Punctual state.2))
    (Lives.every_of_empty (fun _ => rfl)) ?_
  rintro ⟨s, latest⟩ call ⟨t, later⟩ punctual _ ⟨⟨_, rfl⟩, order, within⟩
  obtain ⟨_, turns⟩ := turned_step cron call.find queue s call.op
  exact turns.punctual (fun id l shown => (punctual id l shown).mono order)
    (fun now reads => (within now reads).2)

open InMemoryJobQueueState in
/-- Promoted and claimed at `now`, no job is ahead of its schedule. -/
theorem claimNext_punctual {s : InMemoryJobQueueState} {latest now : DateTime}
    {workerId : JobWorkerId} {leaseFor : Duration} {lockToken : JobLockToken} {job : Job}
    (every : s.lives.Every (Life.Punctual latest)) (order : latest ≤ now)
    (claimed : (s.claimNext workerId leaseFor now lockToken).2 = .ok (some job))
    : job.scheduledAt ≤ now := by
  cases paused : s.paused with
  | true =>
      simp only [claimNext, paused, if_true] at claimed
      cases claimed
  | false =>
      rw [claimNext_unpaused paused] at claimed
      obtain ⟨first, least, rfl⟩ := Option.map_eq_some_iff.mp (Except.ok.inj claimed)
      obtain ⟨found, waiting⟩ := firstWaiting_some least
      have turns : Turns ⟨(· = now), fun _ => False, fun _ => False, fun _ => False⟩ s.lives _ _ :=
        turns_promoteDueLocked s rfl
      generalize (s.promoteDueLocked now).1 = t at found turns
      have promoted : t.lives.Every (Life.Punctual now) :=
        turns.punctual (fun id l shown => (every id l shown).mono order)
          (fun time same => le_of_eq same)
      exact promoted first.id first.life (lives_of_get found) (.inl waiting)

/-- In a run whose clock readings never go back, every waiting job is scheduled no later than the
latest reading, and every job that a claim returns is scheduled no later than the claim.
-/
theorem jobs_punctual {cron : Cron} {queue : QueueName} {s : InMemoryJobQueueState}
    {start latest : DateTime}
    (run : (clockedQueueSystem cron queue).Reaches ({}, start) (s, latest))
    : (∀ id job, s.jobs.get id = some job → job.state = .waiting → job.scheduledAt ≤ latest)
      ∧ ∀ workerId leaseFor now lockToken job,
          latest ≤ now
          → (s.claimNext workerId leaseFor now lockToken).2 = .ok (some job)
          → job.scheduledAt ≤ now := by
  have every := punctual_run run
  refine ⟨?_, ?_⟩
  · intro id job found waiting
    exact every id _ (InMemoryJobQueueState.lives_of_get found) (.inl waiting)
  · intro workerId leaseFor now lockToken job order claimed
    exact claimNext_punctual every order claimed

-----------------------------------------------------------------------------------------
-- A delayed job
-----------------------------------------------------------------------------------------

/-- Serving calls in order of their times is a run of the clocked system, by induction on the
calls.
-/
theorem clockedRun_serve {cron : Cron} {queue : QueueName} {s : InMemoryJobQueueState}
    {before : DateTime} {calls : List Call} (fresh : FreshCalls cron queue s calls)
    (order : InOrder before calls)
    : (clockedQueueSystem cron queue).Reaches (s, before)
        (serve cron queue s calls, lastTime before calls) := by
  induction calls generalizing s before with
  | nil => exact .refl _
  | cons call rest ih =>
      refine LabelledSystem.Run.trans (.single (a := call) trivial ?_) (ih fresh.2 order.2)
      obtain ⟨now, known, later⟩ := (Option.any_eq_true _ _).mp order.1
      have ordered : before ≤ now := by simpa using later
      refine ⟨⟨fresh.1, rfl⟩, by simpa [known] using ordered, ?_⟩
      intro reading reads
      have same : call.op.time = some reading := by
        unfold InMemoryJobQueueState.Reads at reads
        split at reads
        · next isDrain =>
            rw [isDrain] at known
            cases known
        · exact reads
      obtain rfl := Option.some.inj (known.symm.trans same)
      exact ⟨ordered, by simp [known]⟩

/-- A delayed job that is promoted when it is due, and one that is still delayed. -/
def delayedWork : List Call :=
  [ { op := .addAt "work" .null { delay := some 5 } 0 "first" },
    { op := .addAt "work" .null { delay := some 9 } 1 "second" },
    { op := .promoteDueJobs 6 } ]

theorem jobs_punctual_delayed
    : let s := serve noCron "queue" {} delayedWork
      (∀ job, s.jobs.get "first" = some job → job.state = .waiting → job.scheduledAt ≤ 6)
        ∧ ∃ job, (s.claimNext "worker" 10 7 "lease").2 = .ok (some job) ∧ job.scheduledAt ≤ 7 := by
  have fresh : FreshCalls noCron "queue" {} delayedWork := by decide +kernel
  have order : InOrder 0 delayedWork := by decide
  have latest : lastTime 0 delayedWork = 6 := by decide
  have claimable
      : (((serve noCron "queue" {} delayedWork).claimNext "worker" 10 7 "lease").2.toOption.bind
          (fun job => job)).isSome = true := by
    decide +kernel
  have run := clockedRun_serve fresh order
  rw [latest] at run
  obtain ⟨waiting, claims⟩ := jobs_punctual run
  generalize serve noCron "queue" {} delayedWork = s at waiting claims claimable ⊢
  refine ⟨waiting "first", ?_⟩
  cases outcome : (s.claimNext "worker" 10 7 "lease").2 with
  | error error =>
      rw [outcome] at claimable
      cases claimable
  | ok found =>
      rw [outcome] at claimable
      obtain ⟨job, rfl⟩ := Option.isSome_iff_exists.mp claimable
      exact ⟨job, rfl, claims "worker" 10 7 "lease" job (by decide) outcome⟩

end Lane
