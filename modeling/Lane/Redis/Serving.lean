import Lane.Redis.Server
import Lane.Redis.Upkeep

/-! The server keeps its jobs in order and follows a table of leases: its active set holds the leased
jobs, and a lock exists as long as its lease has time left.
-/

namespace Lane

namespace Keyspace

open Redis

variable {keys : Keyspace} {job : Job} {id : JobId}

/-- In order the waiting set lists waiting jobs, under their scores. -/
theorem Filed.waits_of_listed (filed : keys.InOrder) {score : Int}
    (listed : keys.waiting.lookup id = some score)
    : ∃ job, keys.jobs id = some job ∧ job.state = .waiting ∧ waitingScore job = score := by
  have fits := filed.fits id (Set.notMem_empty id)
  have turn : ((keys.jobs id).map Job.tag).bind (fun tag => tag.turn.map Prod.fst) = some score := by
    rw [← listed]
    exact fits.waiting.symm
  cases found : keys.jobs id with
  | none => simp [found] at turn
  | some job =>
      by_cases waits : job.state = .waiting
      · exact ⟨job, rfl, waits, by simpa [found, Job.tag, waits] using turn⟩
      · simp [found, Job.tag, waits] at turn

/-- A waiting job is listed. -/
theorem Filed.listed_of_waits (filed : keys.InOrder) (found : keys.jobs id = some job)
    (waits : job.state = .waiting)
    : keys.waiting.lookup id = some (waitingScore job) := by
  have fits := filed.fits id (Set.notMem_empty id)
  refine fits.waiting.trans ?_
  simp [Keyspace.place, found, Job.tag, waits]

end Keyspace

namespace RedisServer

open Redis

variable {s after : RedisServer} {table : LeaseTable JobId JobLockToken} {jobId : JobId} {job : Job}
variable {lockToken : JobLockToken}

-----------------------------------------------------------------------------------------
-- Claims
-----------------------------------------------------------------------------------------

/-- What a claim looks at: the meta hash is tidied and due jobs are promoted. -/
def readied (s : RedisServer) (now : DateTime) : RedisServer := s.isPausedOrMaxed.1.promote now

/-- The claims of this window have used the limit up. -/
def isLimited (s : RedisServer) (args : ClaimArgs) : Prop :=
  0 < (s.rateLimitOf args).1 ∧ (s.rateLimitOf args).1 ≤ s.currentClaims

/-- The server after a claim that took the job. -/
def claimed (s : RedisServer) (args : ClaimArgs) (jobId : JobId) (job : Job) : RedisServer :=
  let leased := s.setLockTtl jobId args.lockDuration
  let counted :=
    if 0 < (s.rateLimitOf args).1 then leased.countClaim (s.rateLimitOf args).2 else leased
  { counted with keys := claimJob s.keys args jobId job }

theorem isPausedOrMaxed_keys (s : RedisServer) : s.isPausedOrMaxed.1.keys = s.keys := by
  unfold isPausedOrMaxed
  split
  · rfl
  · split <;> rfl

theorem candidates_listed {id : JobId} (candidate : id ∈ s.candidates)
    : ∃ score, s.keys.waiting.lookup id = some score := by
  obtain ⟨entry, member, rfl⟩ := List.mem_map.mp (List.mem_of_mem_take candidate)
  exact ⟨entry.2, SortedSet.mem_ranked.mp member⟩

theorem claimFirst_of_waiting {max duration : Nat} {rest : List JobId} {args : ClaimArgs}
    (found : s.keys.jobs jobId = some job) (waits : job.state = .waiting)
    : s.claimFirst args max duration (jobId :: rest)
      = ({ (if 0 < max then (s.setLockTtl jobId args.lockDuration).countClaim duration
            else s.setLockTtl jobId args.lockDuration) with
          keys := claimJob s.keys args jobId job }, some (jobId, claimedJob args job)) := by
  unfold claimFirst
  simp only [found, waits, ne_eq, not_true_eq_false, if_false]
  split <;> rfl

/-- A claim takes the first candidate, or none when it may not or there is none. -/
theorem claim_cases {args : ClaimArgs} (inOrder : (s.readied args.now).keys.InOrder)
    : let ready := s.readied args.now
      (s.claim args = (ready, none)
        ∧ (ready.isLimited args ∨ s.isPausedOrMaxed.2 = true ∨ ready.candidates = []))
      ∨ ∃ jobId job,
          ¬ ready.isLimited args ∧ s.isPausedOrMaxed.2 = false
          ∧ ready.candidates.head? = some jobId
          ∧ ready.keys.jobs jobId = some job ∧ job.state = .waiting
          ∧ s.claim args = (ready.claimed args jobId job, some (jobId, claimedJob args job)) := by
  have unfolded : s.claim args
      = if 0 < ((s.readied args.now).rateLimitOf args).1
            ∧ ((s.readied args.now).rateLimitOf args).1 ≤ (s.readied args.now).currentClaims then
          (s.readied args.now, none)
        else if s.isPausedOrMaxed.2 = true then
          (s.readied args.now, none)
        else
          (s.readied args.now).claimFirst args ((s.readied args.now).rateLimitOf args).1
            ((s.readied args.now).rateLimitOf args).2 (s.readied args.now).candidates :=
    rfl
  dsimp only
  rw [unfolded]
  generalize s.readied args.now = ready at inOrder
  by_cases limited : ready.isLimited args
  · exact .inl ⟨if_pos limited, .inl limited⟩
  · have unlimited : ¬ (0 < (ready.rateLimitOf args).1 ∧ (ready.rateLimitOf args).1 ≤ ready.currentClaims) :=
      limited
    rw [if_neg unlimited]
    by_cases blocked : s.isPausedOrMaxed.2 = true
    · exact .inl ⟨if_pos blocked, .inr (.inl blocked)⟩
    · rw [if_neg blocked]
      cases candidates : ready.candidates with
      | nil => exact .inl ⟨rfl, .inr (.inr rfl)⟩
      | cons jobId rest =>
          have candidate : jobId ∈ ready.candidates := by simp [candidates]
          obtain ⟨score, listed⟩ := ready.candidates_listed candidate
          obtain ⟨job, found, waits, _⟩ := inOrder.waits_of_listed listed
          refine .inr ⟨jobId, job, limited, by simpa using blocked, rfl, found, waits, ?_⟩
          exact claimFirst_of_waiting found waits

-----------------------------------------------------------------------------------------
-- The table of leases
-----------------------------------------------------------------------------------------

/-- The lock of a job, with the time when it expires. -/
def lockOf (s : RedisServer) (jobId : JobId) : Option (JobLockToken × Int) :=
  (s.keys.locks jobId).map (fun lockToken => (lockToken, s.expiry (s.lockTtl jobId)))

/-- The jobs are in order, those that are leased are active, and locks show the leases that have time
left.
-/
structure Tracks (table : LeaseTable JobId JobLockToken) (s : RedisServer) : Prop where
  inOrder : s.keys.InOrder
  active : ∀ id, (s.keys.active.lookup id).isSome = (table id).isSome
  locks : ∀ id, s.lockOf id = (table id).filter (fun lease => s.clock ≤ lease.2)

/-- The events are allowed, and the server follows them. -/
structure Follows (table : LeaseTable JobId JobLockToken) (events : List RedisEvent)
    (after : RedisServer)
    : Prop where
  legal : table.Legal events
  tracks : Tracks (table.nextAll events) after

/-- Nothing happens to a lease. -/
theorem Tracks.quiet (tracks : Tracks table s) (files : Keyspace.Files ∅ s.keys after.keys)
    (lockTtl : after.lockTtl = s.lockTtl) (clock : after.clock = s.clock)
    : Follows table [] after where
  legal := trivial
  tracks :=
    { inOrder := files.filed
      active := fun id => by
        rw [files.steady.active]
        exact tracks.active id
      locks := fun id => by
        rw [lockOf, expiry, files.steady.locks, lockTtl, clock]
        exact tracks.locks id }

/-- The holder of a lock holds a lease that has time left. -/
theorem Tracks.holder (tracks : Tracks table s) (held : s.keys.locks jobId = some lockToken)
    : ∃ expiry, table jobId = some (lockToken, expiry) ∧ s.clock ≤ expiry := by
  have lock := tracks.locks jobId
  rw [lockOf, held, Option.map_some, eq_comm, Option.filter_eq_some_iff] at lock
  exact ⟨_, lock.1, by simpa using lock.2⟩

/-- A worker ends its lease. -/
theorem Tracks.release (tracks : Tracks table s) (holds : s.keys.Holds jobId lockToken job)
    (files : Keyspace.Files ∅ (s.keys.releaseLock jobId) after.keys)
    (lockTtl : after.lockTtl = s.lockTtl) (clock : after.clock = s.clock)
    : Follows table [.release jobId lockToken s.clock] after := by
  refine ⟨⟨tracks.holder holds.lock, trivial⟩, files.filed, ?_, ?_⟩
  · intro id
    rw [files.steady.active]
    by_cases own : id = jobId
    · rw [own]
      simp [Keyspace.releaseLock, LeaseTable.nextAll, LeaseTable.next, LeaseTable.Event.key,
        LeaseTable.Event.leaves]
    · simpa [Keyspace.releaseLock, LeaseTable.nextAll, LeaseTable.next, LeaseTable.Event.key, own,
        AList.lookup_erase_ne own] using tracks.active id
  · intro id
    rw [lockOf, RedisServer.expiry, files.steady.locks, lockTtl, clock]
    by_cases own : id = jobId
    · rw [own]
      simp [Keyspace.releaseLock, LeaseTable.nextAll, LeaseTable.next, LeaseTable.Event.key,
        LeaseTable.Event.leaves]
    · simpa [Keyspace.releaseLock, LeaseTable.nextAll, LeaseTable.next, LeaseTable.Event.key, own,
        lockOf, RedisServer.expiry] using tracks.locks id

/-- A worker renews its lease. -/
theorem Tracks.renew (tracks : Tracks table s) (holds : s.keys.Holds jobId lockToken job)
    (leaseExpiresAt : DateTime) (lockDuration : Nat)
    : Follows table [.renew jobId lockToken s.clock (s.expiry lockDuration)]
        ({ s with keys := s.keys.renewLock jobId job lockToken leaseExpiresAt }.setLockTtl jobId
          lockDuration) := by
  have held := tracks.holder holds.lock
  have renewed := tracks.inOrder.renewLock (Set.notMem_empty jobId) holds.found holds.active
    lockToken leaseExpiresAt
  refine ⟨⟨held, trivial⟩, renewed, ?_, ?_⟩
  · intro id
    by_cases own : id = jobId
    · rw [own]
      simp [setLockTtl, Keyspace.renewLock, Keyspace.setJob, Keyspace.setLock, SortedSet.add,
        LeaseTable.nextAll, LeaseTable.next, LeaseTable.Event.key, LeaseTable.Event.leaves]
    · simpa [setLockTtl, Keyspace.renewLock, Keyspace.setJob, Keyspace.setLock, SortedSet.add,
        LeaseTable.nextAll, LeaseTable.next, LeaseTable.Event.key, own, AList.lookup_insert_ne own]
        using tracks.active id
  · intro id
    have lock : ({ s with keys := s.keys.renewLock jobId job lockToken leaseExpiresAt }.setLockTtl
          jobId lockDuration).lockOf id
        = if id = jobId then some (lockToken, s.expiry lockDuration) else s.lockOf id := by
      by_cases own : id = jobId
      · simp [own, lockOf, setLockTtl, Keyspace.renewLock, Keyspace.setJob, Keyspace.setLock,
          RedisServer.expiry]
      · simp [own, lockOf, setLockTtl, Keyspace.renewLock, Keyspace.setJob, Keyspace.setLock,
          RedisServer.expiry]
    rw [lock]
    change _ = Option.filter (fun lease : JobLockToken × Int => decide (s.clock ≤ lease.2)) _
    by_cases own : id = jobId
    · rw [own]
      simp [LeaseTable.nextAll, LeaseTable.next, LeaseTable.Event.key, LeaseTable.Event.leaves,
        RedisServer.expiry, Option.filter]
    · simpa [LeaseTable.nextAll, LeaseTable.next, LeaseTable.Event.key, own] using tracks.locks id

theorem claimJob_steady (keys : Keyspace) (args : ClaimArgs) (jobId : JobId) (job : Job)
    : (claimJob keys args jobId job).active
        = keys.active.add (timestampMillis args.leaseExpiresAt) jobId
      ∧ (claimJob keys args jobId job).locks
        = Function.update keys.locks jobId (some args.lockToken) := by
  unfold claimJob
  dsimp only
  have steady := (Keyspace.syncRepeatScheduler_aside
    (({ ({ keys.setLock jobId args.lockToken with waiting := keys.waiting.erase jobId }
        : Keyspace) with
      active := keys.active.add (timestampMillis args.leaseExpiresAt) jobId }
        : Keyspace).setJob jobId (claimedJob args job))
    (claimedJob args job) jobId (timestampMillis job.scheduledAt)).steady
  exact ⟨steady.active, steady.locks⟩

theorem claimed_lockTtl (s : RedisServer) (args : ClaimArgs) (jobId : JobId) (job : Job)
    : (s.claimed args jobId job).lockTtl = Function.update s.lockTtl jobId args.lockDuration := by
  unfold claimed
  dsimp only
  split <;> rfl

theorem claimed_clock (s : RedisServer) (args : ClaimArgs) (jobId : JobId) (job : Job)
    : (s.claimed args jobId job).clock = s.clock := by
  unfold claimed
  dsimp only
  split <;> rfl

theorem claimed_metaHash (s : RedisServer) (args : ClaimArgs) (jobId : JobId) (job : Job)
    : (s.claimed args jobId job).metaHash = s.metaHash := by
  unfold claimed
  dsimp only
  split <;> rfl

/-- A worker claims a job that waits. -/
theorem Tracks.grant (tracks : Tracks table s) (found : s.keys.jobs jobId = some job)
    (waits : job.state = .waiting) (args : ClaimArgs)
    : Follows table [.grant jobId args.lockToken s.clock (s.expiry args.lockDuration)]
        (s.claimed args jobId job) := by
  have unsettled : jobId ∉ (∅ : Set JobId) := Set.notMem_empty jobId
  have idle : s.keys.active.lookup jobId = none := by
    refine tracks.inOrder.active_absent unsettled ?_
    intro record known
    rw [found] at known
    cases known
    rw [waits]
    decide
  have free : table jobId = none := by
    have same := tracks.active jobId
    rw [idle] at same
    simpa using same.symm
  obtain ⟨active, locks⟩ := claimJob_steady s.keys args jobId job
  have keys : (s.claimed args jobId job).keys = claimJob s.keys args jobId job := rfl
  refine ⟨⟨free, trivial⟩, ?_, ?_, ?_⟩
  · rw [keys]
    exact tracks.inOrder.claimJob unsettled found waits args
  · intro id
    rw [keys, active]
    by_cases own : id = jobId
    · rw [own]
      simp [SortedSet.add, LeaseTable.nextAll, LeaseTable.next, LeaseTable.Event.key,
        LeaseTable.Event.leaves]
    · simpa [SortedSet.add, LeaseTable.nextAll, LeaseTable.next, LeaseTable.Event.key, own,
        AList.lookup_insert_ne own] using tracks.active id
  · intro id
    have lock : (s.claimed args jobId job).lockOf id
        = if id = jobId then some (args.lockToken, s.expiry args.lockDuration) else s.lockOf id := by
      rw [lockOf, RedisServer.expiry, keys, locks, claimed_lockTtl, claimed_clock]
      by_cases own : id = jobId
      · simp [own, RedisServer.expiry]
      · simp [own, lockOf, RedisServer.expiry]
    simp only [lock, claimed_clock]
    by_cases own : id = jobId
    · rw [own]
      simp [LeaseTable.nextAll, LeaseTable.next, LeaseTable.Event.key, LeaseTable.Event.leaves,
        RedisServer.expiry, Option.filter]
    · simpa [LeaseTable.nextAll, LeaseTable.next, LeaseTable.Event.key, own] using tracks.locks id

/-- Stalled jobs are taken from their workers. -/
theorem Tracks.revoke (tracks : Tracks table s) {popped : List JobId} (distinct : popped.Nodup)
    (now : DateTime)
    : let keys := (s.keys.recoverStalled popped now).1
      Follows table
        ((recoveredIds s.keys keys popped).map (fun jobId => .revoke jobId s.clock))
        { s with keys } := by
  obtain ⟨inOrder, locks, active⟩ := tracks.inOrder.recoverStalled popped now
  dsimp only at inOrder locks active ⊢
  generalize (s.keys.recoverStalled popped now).1 = keys at inOrder locks active ⊢
  have member : ∀ id, id ∈ recoveredIds s.keys keys popped
      ↔ (s.keys.active.lookup id).isSome = true ∧ keys.active.lookup id = none := by
    intro id
    rw [recoveredIds, List.mem_filter]
    constructor
    · rintro ⟨_, taken⟩
      simpa using taken
    · rintro ⟨before, gone⟩
      refine ⟨?_, by simp [before, gone]⟩
      rcases active id with same | ⟨popped, _⟩
      · rw [← same, gone] at before
        cases before
      · exact popped
  refine ⟨?_, inOrder, ?_, ?_⟩
  · refine LeaseTable.legal_revokes (distinct.filter _) ?_
    intro id taken
    obtain ⟨before, gone⟩ := (member id).mp taken
    have unlocked : s.keys.locks id = none := by
      rw [← locks]
      by_contra locked
      have still := inOrder.locked id locked
      simp [Keyspace.place, gone] at still
    rw [tracks.active id, Option.isSome_iff_exists] at before
    obtain ⟨⟨token, expiry⟩, leased⟩ := before
    refine ⟨token, expiry, leased, ?_⟩
    have lock := tracks.locks id
    rw [lockOf, unlocked, Option.map_none, leased] at lock
    simpa [Option.filter] using lock.symm
  · intro id
    rw [LeaseTable.nextAll_revokes]
    split
    · next taken => simp [((member id).mp taken).2]
    · next kept =>
        rw [← tracks.active id]
        rcases active id with same | ⟨_, gone⟩
        · rw [same]
        · cases before : s.keys.active.lookup id with
          | none => simp [gone]
          | some score => exact absurd ((member id).mpr ⟨by simp [before], gone⟩) kept
  · intro id
    rw [LeaseTable.nextAll_revokes]
    have same : ({ s with keys } : RedisServer).lockOf id = s.lockOf id := by
      rw [lockOf, locks]
      rfl
    rw [same]
    split
    · next taken =>
        obtain ⟨_, gone⟩ := (member id).mp taken
        rw [lockOf, ← locks]
        by_contra locked
        have held : keys.locks id ≠ none := by
          intro unlocked
          rw [unlocked] at locked
          exact locked rfl
        have still := inOrder.locked id held
        simp [Keyspace.place, gone] at still
    · exact tracks.locks id

/-- Time passes. -/
theorem Tracks.elapse (tracks : Tracks table s) (elapsed : Nat) : Tracks table (s.elapse elapsed) where
  inOrder := by
    refine tracks.inOrder.stays (fun _ => rfl) rfl ?_ tracks.inOrder.stalled tracks.inOrder.flows
    intro id held
    refine tracks.inOrder.locked id ?_
    intro unlocked
    simp [RedisServer.elapse, unlocked] at held
  active := tracks.active
  locks id := by
    have lock := tracks.locks id
    cases held : s.keys.locks id with
    | none =>
        rw [lockOf, held, Option.map_none] at lock
        cases leased : table id with
        | none => simp [lockOf, RedisServer.elapse, held]
        | some lease =>
            rw [leased] at lock
            have ended : lease.2 < s.clock := by simpa [Option.filter] using lock.symm
            have still : ¬ s.clock + elapsed ≤ lease.2 := by omega
            simp [lockOf, RedisServer.elapse, held, Option.filter, still]
    | some token =>
        obtain ⟨expiry, leased, _⟩ := tracks.holder held
        have time : expiry = s.clock + s.lockTtl id := by
          rw [lockOf, held, leased] at lock
          simp only [Option.map_some, Option.filter] at lock
          split at lock
          · cases lock
            rfl
          · cases lock
        by_cases left : elapsed ≤ s.lockTtl id
        · have still : s.clock + elapsed ≤ expiry := by omega
          simp [lockOf, RedisServer.elapse, held, leased, left, still, Option.filter,
            RedisServer.expiry]
          omega
        · have ended : ¬ s.clock + elapsed ≤ expiry := by omega
          simp [lockOf, RedisServer.elapse, leased, left, ended, Option.filter]

-----------------------------------------------------------------------------------------
-- Requests
-----------------------------------------------------------------------------------------

/-- A call that may end a lease. -/
theorem Tracks.ends (tracks : Tracks table s) {accepted : Bool} {keys : Keyspace}
    (ends : s.keys.EndsLease jobId lockToken accepted keys)
    : Follows table (s.endedBy jobId lockToken accepted) { s with keys } := by
  unfold Keyspace.EndsLease at ends
  cases accepted with
  | true =>
      obtain ⟨⟨job, holds⟩, files⟩ := ends
      exact tracks.release holds files rfl rfl
  | false =>
      rw [show keys = s.keys from ends]
      exact tracks.quiet (.refl tracks.inOrder) rfl rfl

/-- Several renewals, by induction on them. -/
theorem Tracks.renewLeases (tracks : Tracks table s) (leaseFor : Duration) (now : DateTime)
    (renewals : List JobLeaseRenewal)
    : Follows table (s.renewLeases leaseFor now renewals).2
        (s.renewLeases leaseFor now renewals).1 := by
  induction renewals generalizing s table with
  | nil => exact tracks.quiet (.refl tracks.inOrder) rfl rfl
  | cons renewal rest ih =>
      have renews := s.keys.renewOne_renews renewal.jobId renewal.lockToken
        (addDuration now leaseFor)
      unfold RedisServer.renewLeases
      rcases renewed : s.keys.renewOne renewal.jobId renewal.lockToken (addDuration now leaseFor)
        with ⟨keys, accepted⟩
      rw [renewed] at renews
      cases accepted with
      | false => exact ih tracks
      | true =>
          obtain ⟨job, leaseExpiresAt, holds, same⟩ := renews
          have first := tracks.renew holds leaseExpiresAt (lockDurationMillis leaseFor)
          have later := ih first.tracks
          dsimp only at same ⊢
          rw [same]
          exact ⟨⟨first.legal.1, later.legal⟩, later.tracks⟩

theorem readied_files (inOrder : s.keys.InOrder) (now : DateTime)
    : Keyspace.Files ∅ s.keys (s.readied now).keys := by
  have same := s.isPausedOrMaxed_keys
  have begun : s.isPausedOrMaxed.1.keys.InOrder := by rw [same]; exact inOrder
  have promoted := begun.promoteDue (timestampMillis now)
  refine ⟨promoted.filed, ?_⟩
  rw [← same]
  exact promoted.steady

theorem readied_lockTtl (s : RedisServer) (now : DateTime)
    : (s.readied now).lockTtl = s.lockTtl ∧ (s.readied now).clock = s.clock := by
  unfold readied promote isPausedOrMaxed
  split
  · exact ⟨rfl, rfl⟩
  · split <;> exact ⟨rfl, rfl⟩

theorem Tracks.readied (tracks : Tracks table s) (now : DateTime) : Tracks table (s.readied now) :=
  (tracks.quiet (readied_files tracks.inOrder now) (s.readied_lockTtl now).1
    (s.readied_lockTtl now).2).tracks

theorem claimRateLimitTtl_rest (s : RedisServer) (maxClaims : Nat)
    : (s.claimRateLimitTtl maxClaims).keys = s.keys
      ∧ (s.claimRateLimitTtl maxClaims).lockTtl = s.lockTtl
      ∧ (s.claimRateLimitTtl maxClaims).clock = s.clock := by
  unfold claimRateLimitTtl
  split
  · exact ⟨rfl, rfl, rfl⟩
  · split <;> exact ⟨rfl, rfl, rfl⟩

/-- A request is allowed by the leases and leaves the server following them. -/
theorem Tracks.serve (tracks : Tracks table s) {request : RedisRequest} (made : request.Made s)
    : Follows table (s.serve request).2 (s.serve request).1 := by
  have inOrder := tracks.inOrder
  have still : Follows table [] s := tracks.quiet (.refl inOrder) rfl rfl
  cases request with
  | addJobs jobs =>
      refine tracks.quiet (inOrder.addJobs ?_) rfl rfl
      intro job member
      obtain ⟨queue, name, payload, options, now, uuid, rfl⟩ := made job member
      exact Keyspace.new_enters queue name payload options now uuid
  | claimNext args =>
      have ready := tracks.readied args.now
      have clock := (s.readied_lockTtl args.now).2
      rcases claim_cases ready.inOrder with ⟨none, _⟩ | ⟨jobId, job, _, _, _, found, waits, taken⟩
      · simp only [RedisServer.serve, none]
        exact ⟨trivial, ready⟩
      · have granted := ready.grant found waits args
        rw [RedisServer.expiry, clock] at granted
        simp only [RedisServer.serve, taken]
        exact granted
  | completeJob args =>
      obtain ⟨cron, active, uuid, next⟩ := made
      refine tracks.ends (inOrder.complete args ?_)
      intro repeatNext known
      rw [known] at next
      exact Keyspace.nextRepeatJob_enters next
  | failJob args => exact tracks.ends (inOrder.fail args)
  | renewLease jobId lockToken leaseFor now =>
      have renews := s.keys.renewLease_renews jobId lockToken (addDuration now leaseFor)
      simp only [RedisServer.serve]
      generalize s.keys.renewLease jobId lockToken (addDuration now leaseFor) = outcome at renews ⊢
      unfold Keyspace.RenewsLease at renews
      split at renews
      · next accepted =>
          obtain ⟨job, leaseExpiresAt, holds, same⟩ := renews
          rw [if_pos accepted, same]
          exact tracks.renew holds leaseExpiresAt (lockDurationMillis leaseFor)
      · next rejected =>
          rw [if_neg rejected, renews]
          exact still
  | renewLeases renewals leaseFor now => exact tracks.renewLeases leaseFor now renewals
  | delayActiveJob jobId lockToken delay now =>
      exact tracks.ends (inOrder.delayActive jobId lockToken delay (addDuration now delay))
  | releaseActiveJob jobId lockToken now =>
      exact tracks.ends (inOrder.releaseActive jobId lockToken now)
  | recoverStalled popped now => exact tracks.revoke made.1 now
  | promoteDue now => exact tracks.quiet (inOrder.promoteDue _) rfl rfl
  | promoteJob jobId now => exact tracks.quiet (inOrder.promoteJob jobId now).files rfl rfl
  | rescheduleJob jobId delay now =>
      exact tracks.quiet (inOrder.rescheduleJob jobId delay _).files rfl rfl
  | updatePriority jobId priority lifo =>
      exact tracks.quiet (inOrder.updatePriority jobId priority lifo).files rfl rfl
  | updateData jobId payload =>
      have handles := inOrder.editJob jobId (fun job => { job with payload }) (fun _ => rfl)
      exact tracks.quiet handles.files rfl rfl
  | updateProgress jobId progress =>
      have handles :=
        inOrder.editJob jobId (fun job => { job with progress := some progress }) (fun _ => rfl)
      exact tracks.quiet handles.files rfl rfl
  | saveStacktrace jobId stacktrace failedReason =>
      have handles :=
        inOrder.editJob jobId
          (fun job => { job with stacktrace, failedReason := some failedReason })
          (fun _ => rfl)
      exact tracks.quiet handles.files rfl rfl
  | getClaimRateLimitTtl maxClaims =>
      obtain ⟨keys, lockTtl, clock⟩ := s.claimRateLimitTtl_rest maxClaims
      refine tracks.quiet ?_ lockTtl clock
      rw [RedisServer.serve, keys]
      exact .refl inOrder
  | elapse elapsed => exact ⟨trivial, tracks.elapse elapsed⟩
  | _ => exact tracks.quiet (.refl inOrder) rfl rfl

/-- A server without active jobs, whose jobs are in order. -/
structure Fresh (s : RedisServer) : Prop where
  inOrder : s.keys.InOrder
  idle : s.keys.active = ∅

theorem fresh_empty : Fresh {} := ⟨Keyspace.inOrder_empty, rfl⟩

theorem Fresh.tracks (fresh : Fresh s) : Tracks (fun _ => none) s where
  inOrder := fresh.inOrder
  active id := by simp [fresh.idle]
  locks id := by
    have unlocked : s.keys.locks id = none := by
      by_contra locked
      have still := fresh.inOrder.locked id locked
      simp [Keyspace.place, fresh.idle] at still
    simp [lockOf, unlocked]

end RedisServer

-----------------------------------------------------------------------------------------
-- Histories
-----------------------------------------------------------------------------------------

namespace RedisHistory

variable {history : RedisHistory} {start : RedisServer}

/-- The events so far are legal, and the server follows them. -/
structure Lawful (history : RedisHistory) : Prop where
  legal : LeaseTable.Legal (fun _ => none) history.events
  tracks : history.server.Tracks (LeaseTable.nextAll (fun _ => none) history.events)

theorem Lawful.step {after : RedisHistory} {request : RedisRequest} (lawful : history.Lawful)
    (step : redisSystem.Step history request after)
    : after.Lawful := by
  obtain ⟨made, rfl⟩ := step
  have follows := lawful.tracks.serve made
  refine ⟨LeaseTable.legal_append.mpr ⟨lawful.legal, follows.legal⟩, ?_⟩
  rw [RedisHistory.after, LeaseTable.nextAll_append]
  exact follows.tracks

/-- Every history of a fresh server is lawful, by induction on its requests. -/
theorem lawful_of_reaches (fresh : start.Fresh)
    (reaches : redisSystem.Reaches { server := start } history)
    : history.Lawful :=
  reaches.invariant Lawful ⟨trivial, fresh.tracks⟩ (fun lawful _ step => lawful.step step)

theorem reaches_after (reaches : redisSystem.Reaches { server := start } history)
    (request : RedisRequest) (made : request.Made history.server)
    : redisSystem.Reaches { server := start } (history.after request) :=
  .tail reaches trivial ⟨made, rfl⟩

end RedisHistory

end Lane
