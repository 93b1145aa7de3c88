import Lane.Redis.Finalizes
import Lane.Redis.Finishing

/-! The scripts on keys that are in order: they leave them in order, and each says which lease it
grants, renews or ends. A rejected call changes nothing.
-/

namespace Lane

namespace Keyspace

open Redis

variable {keys after : Keyspace} {job : Job} {jobId : JobId} {loose : Set JobId}
variable {lockToken : JobLockToken}

-----------------------------------------------------------------------------------------
-- Leases
-----------------------------------------------------------------------------------------

/-- An active job is taken out of its lease. -/
theorem Filed.releaseLock (filed : keys.Filed loose) (settled : jobId ∉ loose)
    (found : keys.jobs jobId = some job) (active : job.state = .active)
    : (keys.releaseLock jobId).Filed (insert jobId loose) := by
  have only : OnlyMoves jobId keys (keys.releaseLock jobId) := by
    intro id own
    simp [Keyspace.place, Keyspace.releaseLock, AList.lookup_erase_ne own]
  have left : (keys.releaseLock jobId).place jobId = { keys.place jobId with active := false } := by
    simp [Keyspace.place, Keyspace.releaseLock]
  refine filed.moves only ?_ ?_ ?_ le_rfl ?_ ?_ filed.flows
  · intro id own
    exact Set.mem_insert_iff.trans (or_iff_right own)
  · intro _
    rw [left]
    exact (filed.fits jobId settled).stopsRunning (active ▸ place_holds found)
  · intro apart
    exact absurd (Set.mem_insert jobId loose) apart
  · intro id held
    by_cases own : id = jobId
    · simp [Keyspace.releaseLock, own] at held
    · rw [only id own]
      exact filed.locked id (by simpa [Keyspace.releaseLock, own] using held)
  · intro id listed
    have apart : id ≠ jobId ∧ id ∈ keys.stalled := by simpa [Keyspace.releaseLock] using listed
    rw [only id apart.1]
    exact filed.stalled id apart.2

/-- A job whose lock expired leaves the active set after it left the stalled set. -/
theorem Filed.leaveActive (filed : keys.Filed loose) (settled : jobId ∉ loose)
    (found : keys.jobs jobId = some job) (active : job.state = .active)
    (unlocked : keys.locks jobId = none) (popped : jobId ∉ keys.stalled)
    : (keys.leaveActive jobId).Filed (insert jobId loose) := by
  have same : keys.leaveActive jobId = keys.releaseLock jobId := by
    rw [Keyspace.leaveActive, Keyspace.releaseLock, ← unlocked, Function.update_eq_self,
      Finset.erase_eq_of_notMem popped]
  rw [same]
  exact filed.releaseLock settled found active

/-- A waiting job is leased to a worker. -/
theorem Filed.claimJob (filed : keys.Filed loose) (settled : jobId ∉ loose)
    (found : keys.jobs jobId = some job) (waits : job.state = .waiting) (args : ClaimArgs)
    : (RedisServer.claimJob keys args jobId job).Filed loose := by
  have named := filed.named settled found
  let leased : Keyspace :=
    { keys with
      locks := Function.update keys.locks jobId (some args.lockToken)
      waiting := keys.waiting.erase jobId
      active := keys.active.add (timestampMillis args.leaseExpiresAt) jobId
      jobs := Function.update keys.jobs jobId (some (RedisServer.claimedJob args job)) }
  have only : OnlyMoves jobId keys leased := by
    intro id own
    simp [leased, Keyspace.place, SortedSet.add, own, AList.lookup_erase_ne own,
      AList.lookup_insert_ne own]
  have entered : leased.place jobId
      = { ({ keys.place jobId with waiting := none } : Placement) with
          tag := some (RedisServer.claimedJob args job).tag
          active := true } := by
    simp [leased, Keyspace.place, SortedSet.add]
  have idle : (RedisServer.claimedJob args job).tag.turn = none :=
    Job.tag_idle (by simp [RedisServer.claimedJob])
  have active : (leased.place jobId).active = true := by rw [entered]
  have filedLeased : leased.Filed loose := by
    refine filed.moves only (fun _ _ => .rfl) (fun held => absurd held settled) ?_ le_rfl ?_ ?_
      filed.flows
    · intro _
      refine ⟨?_, ?_⟩
      · have stopped := (filed.fits jobId settled).stopsWaiting (waits ▸ place_holds found)
        rw [entered]
        exact stopped.runs named rfl idle
      · intro drawn drew
        exact absurd idle (drew.not_idle (by rw [entered]))
    · intro id held
      by_cases own : id = jobId
      · rw [own]
        exact active
      · rw [only id own]
        exact filed.locked id (by simpa [leased, own] using held)
    · intro id listed
      by_cases own : id = jobId
      · rw [own]
        exact active
      · rw [only id own]
        exact filed.stalled id listed
  exact (filedLeased.aside (syncRepeatScheduler_aside leased _ jobId _)).filed

/-- An active job keeps its place when its lease is renewed. -/
theorem Filed.renewLock (filed : keys.Filed loose) (settled : jobId ∉ loose)
    (found : keys.jobs jobId = some job) (active : job.state = .active) (lockToken : JobLockToken)
    (leaseExpiresAt : DateTime)
    : (keys.renewLock jobId job lockToken leaseExpiresAt).Filed loose := by
  have listed : (keys.place jobId).active = true := by
    rw [(filed.fits jobId settled).active]
    exact active ▸ place_holds found
  refine filed.stays ?_ rfl ?_ ?_ filed.flows
  · intro id
    by_cases own : id = jobId
    · have still : (keys.active.lookup jobId).isSome = true := listed
      rw [own]
      simp [Keyspace.place, Keyspace.renewLock, setLock, Keyspace.setJob, SortedSet.add, still, found,
        Job.tag, waitingScore, waitingScoreFor]
    · simp [Keyspace.place, Keyspace.renewLock, setLock, Keyspace.setJob, SortedSet.add, own,
        AList.lookup_insert_ne own]
  · intro id held
    by_cases own : id = jobId
    · rw [own]
      exact listed
    · exact filed.locked id (by simpa [Keyspace.renewLock, setLock, Keyspace.setJob, own] using held)
  · intro id stalled
    exact filed.stalled id (Finset.mem_of_mem_erase stalled)

-----------------------------------------------------------------------------------------
-- Calls of a worker
-----------------------------------------------------------------------------------------

/-- The worker holds the lock of an active job. -/
structure Holds (keys : Keyspace) (jobId : JobId) (lockToken : JobLockToken) (job : Job) : Prop where
  found : keys.jobs jobId = some job
  active : job.state = .active
  lock : keys.locks jobId = some lockToken

theorem holds_of_lockRejection (accepted : keys.lockRejection jobId lockToken = none)
    : ∃ job, keys.Holds jobId lockToken job := by
  unfold lockRejection at accepted
  split at accepted
  · cases accepted
  · next job found =>
      split at accepted
      · cases accepted
      · next active =>
          split at accepted
          · cases accepted
          · next held lock =>
              split at accepted
              · cases accepted
              · next same =>
                  refine ⟨job, found, not_not.mp active, ?_⟩
                  rw [lock, not_not.mp same]

theorem Holds.lockRejection (holds : keys.Holds jobId lockToken job)
    : keys.lockRejection jobId lockToken = none := by
  simp [Keyspace.lockRejection, holds.found, holds.active, holds.lock]

/-- The checks reject with a reply that is no acceptance. -/
theorem lockRejection_isOk {reply : TransitionReply}
    (rejected : keys.lockRejection jobId lockToken = some reply)
    : reply.isOk = false := by
  unfold lockRejection at rejected
  split at rejected
  · cases rejected
    rfl
  · split at rejected
    · cases rejected
      rfl
    · split at rejected
      · cases rejected
        rfl
      · split at rejected
        · cases rejected
          rfl
        · cases rejected

/-- The call ended the lease that its token holds, or it was rejected and changed nothing. -/
def EndsLease (keys : Keyspace) (jobId : JobId) (lockToken : JobLockToken) (accepted : Bool)
    (after : Keyspace)
    : Prop :=
  if accepted then
    (∃ job, keys.Holds jobId lockToken job) ∧ Files ∅ (keys.releaseLock jobId) after
  else
    after = keys

theorem EndsLease.accepted (holds : keys.Holds jobId lockToken job)
    (files : Files ∅ (keys.releaseLock jobId) after)
    : keys.EndsLease jobId lockToken true after :=
  ⟨⟨job, holds⟩, files⟩

theorem EndsLease.rejected (same : after = keys) : keys.EndsLease jobId lockToken false after := same

-----------------------------------------------------------------------------------------
-- Completion
-----------------------------------------------------------------------------------------

theorem Filed.finishCompletion {args : CompleteArgs} (filed : keys.InOrder)
    (found : keys.jobs args.jobId = some job) (active : job.state = .active)
    (next : ∀ repeatNext, args.repeatNext = some repeatNext → entersQueue repeatNext.state)
    : Files ∅ (keys.releaseLock args.jobId) (keys.finishCompletion args job) := by
  have unsettled : ∀ id, id ∉ (∅ : Set JobId) := Set.notMem_empty
  have named := filed.named (unsettled _) found
  have released := Files.refl (filed.releaseLock (unsettled _) found active)
  have given := released.filed.aside
    (releaseDeduplicationKey_aside (keys.releaseLock args.jobId) (completedJob args job) args.jobId)
  have taken : ∀ id, ((keys.releaseLock args.jobId).releaseDeduplicationKeyOnFinalization
      (completedJob args job) args.jobId).jobs id = none
      → id ∉ insert args.jobId (∅ : Set JobId) := by
    intro id absent held
    have own : id = args.jobId := by simpa using held
    rw [release_jobs, own] at absent
    rw [show (keys.releaseLock args.jobId).jobs args.jobId = some job from found] at absent
    cases absent
  have entered := given.filed.enqueueDeduplicatedNext taken (completedJob args job) args.now
  have recorded : Files ∅ (keys.releaseLock args.jobId) (keys.recordCompletion args job).1 := by
    refine (given.trans entered).trans ?_
    exact entered.filed.storeCounted (unsettled _) (completedJob args job) .completed named rfl
      (timestampMillis args.now) _
  have settled := recorded.filed.settleParent (fun id _ _ _ => unsettled id) args
    (completedJob args job)
  unfold Keyspace.finishCompletion
  dsimp only
  refine (recorded.trans settled).trans ?_
  cases waiting : args.repeatNext with
  | none => exact settled.filed.aside (releaseRepeatKey_aside _ _ args.jobId)
  | some repeatNext =>
      dsimp only
      split
      · exact settled.filed.aside (releaseRepeatKey_aside _ _ args.jobId)
      · have repeated := settled.filed.enqueueRepeatNext (fun id _ => unsettled id)
          (next repeatNext waiting)
        exact repeated.trans (repeated.filed.aside (releaseRepeatKey_aside _ _ args.jobId))

/-- The checks of a completion. -/
theorem holds_of_completeRejection {args : CompleteArgs} (accepted : keys.completeRejection args = none)
    : ∃ job, keys.Holds args.jobId args.lockToken job := by
  unfold completeRejection at accepted
  split at accepted
  · cases accepted
  · next job found =>
      split_ifs at accepted with state unlocked mismatch
      exact ⟨job, found, not_not.mp state, not_not.mp mismatch⟩

theorem completeRejection_isOk {args : CompleteArgs} {reply : CompleteReply}
    (rejected : keys.completeRejection args = some reply)
    : reply.isOk = false := by
  unfold completeRejection at rejected
  split at rejected
  · cases rejected
    rfl
  · split_ifs at rejected <;> cases rejected <;> rfl

theorem complete_rejected {args : CompleteArgs} (rejected : (keys.complete args).2.isOk = false)
    : (keys.complete args).1 = keys := by
  unfold Keyspace.complete at rejected ⊢
  cases checked : keys.completeRejection args with
  | some reply => rfl
  | none =>
      rw [checked] at rejected
      dsimp only at rejected ⊢
      split at rejected
      · rfl
      · cases rejected

theorem Filed.complete (filed : keys.InOrder) (args : CompleteArgs)
    (next : ∀ repeatNext, args.repeatNext = some repeatNext → entersQueue repeatNext.state)
    : keys.EndsLease args.jobId args.lockToken (keys.complete args).2.isOk (keys.complete args).1 := by
  unfold Keyspace.complete
  cases rejected : keys.completeRejection args with
  | some reply =>
      dsimp only
      rw [completeRejection_isOk rejected]
      exact .rejected rfl
  | none =>
      obtain ⟨job, holds⟩ := holds_of_completeRejection rejected
      simp only [holds.found]
      exact .accepted holds (filed.finishCompletion holds.found holds.active next)

-----------------------------------------------------------------------------------------
-- Failure
-----------------------------------------------------------------------------------------

theorem Filed.failForGood {args : FailArgs} {record : Job} (filed : keys.InOrder)
    (found : keys.jobs args.jobId = some record) (active : record.state = .active)
    (named : job.id = args.jobId)
    : Files ∅ (keys.releaseLock args.jobId)
        ((keys.releaseLock args.jobId).failForGood args job).1 := by
  have unsettled : ∀ id, id ∉ (∅ : Set JobId) := Set.notMem_empty
  let failed := { job with state := .failed, finishedAt := some args.now }
  have released := Files.refl (filed.releaseLock (unsettled _) found active)
  have given := released.filed.aside
    (releaseDeduplicationKey_aside (keys.releaseLock args.jobId) failed args.jobId)
  have unrepeated := given.filed.aside (releaseRepeatKey_aside _ failed args.jobId)
  have taken : ∀ id, (((keys.releaseLock args.jobId).releaseDeduplicationKeyOnFinalization
      failed args.jobId).releaseRepeatKey failed args.jobId).jobs id = none
      → id ∉ insert args.jobId (∅ : Set JobId) := by
    intro id absent held
    have own : id = args.jobId := by simpa using held
    rw [releaseRepeatKey_jobs, release_jobs, own] at absent
    rw [show (keys.releaseLock args.jobId).jobs args.jobId = some record from found] at absent
    cases absent
  have entered := unrepeated.filed.enqueueDeduplicatedNext taken failed args.now
  have recorded : Files ∅ (keys.releaseLock args.jobId)
      ((keys.releaseLock args.jobId).recordFailureOf args failed) := by
    refine ((given.trans unrepeated).trans entered).trans ?_
    exact entered.filed.storeCounted (unsettled _) failed .failed named rfl
      (timestampMillis args.now) _
  exact recorded.trans
    (recorded.filed.settleFailure (fun id _ _ _ => unsettled id) args.jobId failed args.now)

theorem Filed.fail (filed : keys.InOrder) (args : FailArgs)
    : keys.EndsLease args.jobId args.lockToken (keys.fail args).2.isOk (keys.fail args).1 := by
  unfold Keyspace.fail
  cases rejected : keys.lockRejection args.jobId args.lockToken with
  | some reply =>
      dsimp only
      rw [lockRejection_isOk rejected]
      exact .rejected rfl
  | none =>
      obtain ⟨job, holds⟩ := holds_of_lockRejection rejected
      have named := filed.named (Set.notMem_empty _) holds.found
      have released := filed.releaseLock (Set.notMem_empty _) holds.found holds.active
      simp only [holds.found]
      cases args.retryAt with
      | some retryAt =>
          refine .accepted holds ?_
          exact released.addDelayed (Set.notMem_empty _)
            { reportedJob args job with
              state := .delayed
              scheduledAt := retryAt
              finishedAt := none }
            named rfl (timestampMillis retryAt)
      | none => exact .accepted holds (filed.failForGood holds.found holds.active named)

-----------------------------------------------------------------------------------------
-- Renewal
-----------------------------------------------------------------------------------------

/-- The call renewed the lease that its token holds, or it was rejected and changed nothing. -/
def RenewsLease (keys : Keyspace) (jobId : JobId) (lockToken : JobLockToken) (accepted : Bool)
    (after : Keyspace)
    : Prop :=
  if accepted then
    ∃ job leaseExpiresAt,
      keys.Holds jobId lockToken job ∧ after = keys.renewLock jobId job lockToken leaseExpiresAt
  else
    after = keys

theorem renewLease_renews (keys : Keyspace) (jobId : JobId) (lockToken : JobLockToken)
    (leaseExpiresAt : DateTime)
    : keys.RenewsLease jobId lockToken (keys.renewLease jobId lockToken leaseExpiresAt).2.isOk
        (keys.renewLease jobId lockToken leaseExpiresAt).1 := by
  unfold renewLease
  cases rejected : keys.lockRejection jobId lockToken with
  | some reply =>
      dsimp only
      rw [lockRejection_isOk rejected]
      rfl
  | none =>
      obtain ⟨job, holds⟩ := holds_of_lockRejection rejected
      simp only [holds.found]
      exact ⟨job, leaseExpiresAt, holds, rfl⟩

/-- A renewal passes exactly for the holder. -/
theorem renewLease_isOk (keys : Keyspace) (jobId : JobId) (lockToken : JobLockToken)
    (leaseExpiresAt : DateTime)
    : (keys.renewLease jobId lockToken leaseExpiresAt).2.isOk = true
      ↔ ∃ job, keys.Holds jobId lockToken job := by
  constructor
  · intro accepted
    have renews := keys.renewLease_renews jobId lockToken leaseExpiresAt
    rw [accepted] at renews
    obtain ⟨job, _, holds, _⟩ := renews
    exact ⟨job, holds⟩
  · rintro ⟨job, holds⟩
    unfold renewLease
    rw [holds.lockRejection, holds.found]
    rfl

theorem renewOne_renews (keys : Keyspace) (jobId : JobId) (lockToken : JobLockToken)
    (leaseExpiresAt : DateTime)
    : keys.RenewsLease jobId lockToken (keys.renewOne jobId lockToken leaseExpiresAt).2
        (keys.renewOne jobId lockToken leaseExpiresAt).1 := by
  unfold renewOne
  cases found : keys.jobs jobId with
  | none => rfl
  | some job =>
      dsimp only
      split_ifs with held
      · exact ⟨job, leaseExpiresAt, ⟨found, held.1, held.2.2⟩, rfl⟩
      · rfl

-----------------------------------------------------------------------------------------
-- Giving an active job back
-----------------------------------------------------------------------------------------

/-- In order there is nothing to clear after a rejection. -/
theorem Filed.clearRejected (filed : keys.InOrder) {reply : TransitionReply}
    (rejected : keys.lockRejection jobId lockToken = some reply)
    : keys.clearRejected jobId reply = keys := by
  unfold lockRejection at rejected
  cases found : keys.jobs jobId with
  | none =>
      rw [found] at rejected
      cases rejected
      have idle := filed.active_absent (Set.notMem_empty jobId) (by simp [found])
      have inactive : (keys.place jobId).active = false := by simp [Keyspace.place, idle]
      have unlocked : keys.locks jobId = none := by
        by_contra locked
        rw [filed.locked jobId locked] at inactive
        cases inactive
      have unstalled : jobId ∉ keys.stalled := by
        intro listed
        rw [filed.stalled jobId listed] at inactive
        cases inactive
      rw [Keyspace.clearRejected, Keyspace.releaseLock, SortedSet.erase_absent idle,
        Finset.erase_eq_of_notMem unstalled, ← unlocked, Function.update_eq_self]
  | some job =>
      simp only [found] at rejected
      split at rejected
      · next state =>
          cases rejected
          refine leaveActive_eq_self (filed.active_absent (Set.notMem_empty jobId) ?_)
          intro record known
          rw [found] at known
          cases known
          exact state
      · split at rejected
        · cases rejected
          rfl
        · split at rejected
          · cases rejected
            rfl
          · cases rejected

theorem Filed.delayActive (filed : keys.InOrder) (jobId : JobId) (lockToken : JobLockToken)
    (delay : Duration) (scheduledAt : DateTime)
    : keys.EndsLease jobId lockToken (keys.delayActive jobId lockToken delay scheduledAt).2.isOk
        (keys.delayActive jobId lockToken delay scheduledAt).1 := by
  unfold Keyspace.delayActive
  cases rejected : keys.lockRejection jobId lockToken with
  | some reply =>
      dsimp only
      rw [lockRejection_isOk rejected]
      exact .rejected (filed.clearRejected rejected)
  | none =>
      obtain ⟨job, holds⟩ := holds_of_lockRejection rejected
      have named := filed.named (Set.notMem_empty _) holds.found
      have released := filed.releaseLock (Set.notMem_empty _) holds.found holds.active
      simp only [holds.found]
      split_ifs
      · exact .rejected rfl
      · refine .accepted holds ?_
        have entered := released.addDelayed (Set.notMem_empty _)
          { unleased job with
            state := .delayed
            scheduledAt
            options := { job.options with delay := some delay } }
          named rfl (timestampMillis scheduledAt)
        exact entered.trans (entered.filed.aside (syncRepeatScheduler_aside _ _ jobId _))

theorem Filed.releaseActive (filed : keys.InOrder) (jobId : JobId) (lockToken : JobLockToken)
    (now : DateTime)
    : keys.EndsLease jobId lockToken (keys.releaseActive jobId lockToken now).2.isOk
        (keys.releaseActive jobId lockToken now).1 := by
  unfold Keyspace.releaseActive
  cases rejected : keys.lockRejection jobId lockToken with
  | some reply =>
      dsimp only
      rw [lockRejection_isOk rejected]
      exact .rejected (filed.clearRejected rejected)
  | none =>
      obtain ⟨job, holds⟩ := holds_of_lockRejection rejected
      have named := filed.named (Set.notMem_empty _) holds.found
      have released := filed.releaseLock (Set.notMem_empty _) holds.found holds.active
      simp only [holds.found]
      split_ifs
      · exact .rejected rfl
      · refine .accepted holds ?_
        have entered := released.pushBackWaitingJob (Set.notMem_empty _)
          { unleased job with
            state := .waiting
            scheduledAt := now
            enqueuedSeq := 0 }
          named rfl
        exact entered.trans (entered.filed.aside (syncRepeatScheduler_aside _ _ jobId _))

end Keyspace

end Lane
