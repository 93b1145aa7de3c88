import Lane.Library.LeaseTable
import Lane.Redis.AddJob
import Lane.Redis.Fail
import Lane.Worker.Worker

/-! A Redis queue with its settings, the claim counter and the time that keys have left, under the
requests of its clients. A request is one script or command, which Redis runs as a whole; between
requests time passes, and keys expire.
-/

namespace Lane

-----------------------------------------------------------------------------------------
-- State
-----------------------------------------------------------------------------------------

/-- The meta hash. -/
structure QueueMeta where
  paused : Option String := none
  concurrency : Option Nat := none
  max : Option Nat := none
  duration : Option Nat := none

/-- The key that counts claims, with the milliseconds it has left. -/
structure ClaimCounter where
  count : Nat
  pttl : Option Nat

/-- The claim rate limit of a queue. -/
structure JobRateLimit where
  maxClaims : Nat
  window : Duration

/-- A completion was accepted. -/
def CompleteReply.isOk : CompleteReply → Bool
  | .ok _ => true
  | _ => false

/-- The keys of one queue; `lockTtl` is what `PTTL` gives for a lock that exists. -/
structure RedisServer where
  keys : Keyspace := {}
  metaHash : QueueMeta := {}
  counter : Option ClaimCounter := none
  lockTtl : JobId → Nat := fun _ => 0
  clock : Int := 0

/-- `duration_millis` of the client. -/
def clientMillis (duration : Duration) : Nat := min (duration / nanosPerMilli) u64Max

/-- `lock_duration_millis`. -/
def lockDurationMillis (duration : Duration) : Nat := max (clientMillis duration) 1

/-- What `claim_next_with_conn` passes to the script. -/
structure ClaimArgs where
  workerId : JobWorkerId
  lockToken : JobLockToken
  now : DateTime
  leaseExpiresAt : DateTime
  lockDuration : Nat
  rateLimitMax : Nat
  rateLimitWindowMs : Nat

/-- The arguments of a claim, with the lock token that the uuid crate generates. -/
def claimArgs (workerId : JobWorkerId) (leaseFor : Duration) (now : DateTime)
    (rateLimit : Option JobRateLimit) (uuid : JobLockToken)
    : ClaimArgs :=
  { workerId
    lockToken := uuid
    now
    leaseExpiresAt := addDuration now leaseFor
    lockDuration := lockDurationMillis leaseFor
    rateLimitMax := (rateLimit.map JobRateLimit.maxClaims).getD 0
    rateLimitWindowMs :=
      (rateLimit.map (fun limit => lockDurationMillis limit.window)).getD 0 }

-----------------------------------------------------------------------------------------
-- Expiry
-----------------------------------------------------------------------------------------

/-- What is left of a time to live, unless it is over. -/
def remaining (elapsed pttl : Nat) : Option Nat :=
  if elapsed ≤ pttl then some (pttl - elapsed) else none

/-- A key with an optional expiry after some time. -/
def DeduplicationOwner.after (elapsed : Nat) (owner : DeduplicationOwner)
    : Option DeduplicationOwner :=
  match owner.pttl with
  | none => some owner
  | some pttl => (remaining elapsed pttl).map (fun pttl => { owner with pttl := some pttl })

/-- The counter after some time. -/
def ClaimCounter.after (elapsed : Nat) (counter : ClaimCounter) : Option ClaimCounter :=
  match counter.pttl with
  | none => some counter
  | some pttl => (remaining elapsed pttl).map (fun pttl => { counter with pttl := some pttl })

namespace RedisServer

open Redis

-----------------------------------------------------------------------------------------
-- Claims
-----------------------------------------------------------------------------------------

/-- The active set has reached the configured limit. -/
def isMaxed (s : RedisServer) : Bool :=
  let maxConcurrency := s.metaHash.concurrency.getD 0
  0 < maxConcurrency && maxConcurrency ≤ s.keys.active.card

/-- `queue_is_paused_or_maxed`; the value `0` is an old way to say that the queue runs. -/
def isPausedOrMaxed (s : RedisServer) : RedisServer × Bool :=
  if s.metaHash.paused = some "0" then
    ({ s with metaHash := { s.metaHash with paused := none } }, s.isMaxed)
  else if s.metaHash.paused.isSome then
    (s, true)
  else
    (s, s.isMaxed)

/-- The rate limit that holds for a claim: its own, or else the shared one. -/
def rateLimitOf (s : RedisServer) (args : ClaimArgs) : Nat × Nat :=
  let (max, duration) :=
    if args.rateLimitMax = 0 then
      (s.metaHash.max.getD 0, s.metaHash.duration.getD 0)
    else
      (args.rateLimitMax, args.rateLimitWindowMs)
  if duration = 0 then (0, duration) else (max, duration)

/-- `GET` on the claim counter. -/
def currentClaims (s : RedisServer) : Nat := (s.counter.map ClaimCounter.count).getD 0

/-- `INCR` on the claim counter; the first claim of a window starts its time. -/
def countClaim (s : RedisServer) (duration : Nat) : RedisServer :=
  let counter := s.counter.getD { count := 0, pttl := none }
  let counter := { counter with count := counter.count + 1 }
  let counter := if counter.count = 1 then { counter with pttl := some duration } else counter
  { s with counter := some counter }

/-- The record of a claimed job; the token is not part of it. -/
def claimedJob (args : ClaimArgs) (job : Job) : Job :=
  { job with
    state := .active
    attemptsMade := job.attemptsMade + 1
    processedAt := some args.now
    workerId := some args.workerId
    leaseExpiresAt := some args.leaseExpiresAt
    failedReason := none }

/-- The writes about a claimed job, apart from the lock's time and the counter. -/
def claimJob (keys : Keyspace) (args : ClaimArgs) (jobId : JobId) (job : Job) : Keyspace :=
  let keys := keys.setLock jobId args.lockToken
  let keys := { keys with waiting := keys.waiting.erase jobId }
  let keys := { keys with active := keys.active.add (timestampMillis args.leaseExpiresAt) jobId }
  let keys := keys.setJob jobId (claimedJob args job)
  keys.syncRepeatScheduler (claimedJob args job) jobId (timestampMillis job.scheduledAt)

/-- `SET` with `PX`: the lock of the job has this long left. -/
def setLockTtl (s : RedisServer) (jobId : JobId) (lockDuration : Nat) : RedisServer :=
  { s with lockTtl := Function.update s.lockTtl jobId lockDuration }

/-- The loop over the candidates: the first one that waits is claimed. -/
def claimFirst (s : RedisServer) (args : ClaimArgs) (max duration : Nat)
    : List JobId → RedisServer × Option (JobId × Job)
  | [] => (s, none)
  | jobId :: rest =>
      let unlisted := { s with keys := { s.keys with waiting := s.keys.waiting.erase jobId } }
      match s.keys.jobs jobId with
      | none => unlisted.claimFirst args max duration rest
      | some job =>
          if job.state ≠ .waiting then
            unlisted.claimFirst args max duration rest
          else
            let s := s.setLockTtl jobId args.lockDuration
            let s := if 0 < max then s.countClaim duration else s
            ({ s with keys := claimJob s.keys args jobId job }, some (jobId, claimedJob args job))

/-- How many waiting jobs one script looks at. -/
def candidateLimit : Nat := 1000

/-- `ZRANGE` on the waiting set. -/
def candidates (s : RedisServer) : List JobId :=
  (s.keys.waiting.ranked.map Prod.fst).take candidateLimit

/-- Due delayed jobs become waiting, also in a queue that is paused. -/
def promote (s : RedisServer) (now : DateTime) : RedisServer :=
  { s with keys := (s.keys.promoteDue (timestampMillis now)).1 }

/-- `CLAIM_SCRIPT`. -/
def claim (s : RedisServer) (args : ClaimArgs) : RedisServer × Option (JobId × Job) :=
  let (s, blocked) := s.isPausedOrMaxed
  let s := s.promote args.now
  let (max, duration) := s.rateLimitOf args
  if 0 < max ∧ max ≤ s.currentClaims then
    (s, none)
  else if blocked then
    (s, none)
  else
    s.claimFirst args max duration s.candidates

/-- `CLAIM_RATE_LIMIT_TTL_SCRIPT`: a counter that is used up and has no time left is deleted. -/
def claimRateLimitTtl (s : RedisServer) (maxClaims : Nat) : RedisServer :=
  match if 0 < maxClaims then some maxClaims else s.metaHash.max with
  | none => s
  | some max =>
      if max ≤ s.currentClaims ∧ s.counter.bind ClaimCounter.pttl = some 0 then
        { s with counter := none }
      else
        s

-----------------------------------------------------------------------------------------
-- Time
-----------------------------------------------------------------------------------------

/-- Time passes: locks, deduplication keys and the claim counter expire. -/
def elapse (s : RedisServer) (elapsed : Nat) : RedisServer :=
  { s with
    keys :=
      { s.keys with
        locks := fun jobId => if elapsed ≤ s.lockTtl jobId then s.keys.locks jobId else none
        deduplication :=
          fun id => (s.keys.deduplication id).bind (DeduplicationOwner.after elapsed) }
    counter := s.counter.bind (ClaimCounter.after elapsed)
    lockTtl := fun jobId => s.lockTtl jobId - elapsed
    clock := s.clock + elapsed }

end RedisServer

-----------------------------------------------------------------------------------------
-- Requests
-----------------------------------------------------------------------------------------

/-- What clients ask of the server, and time passing. `set_claim_rate_limit` makes two requests, one
for each field, as its pipeline is not a transaction.
-/
inductive RedisRequest where
  | addJobs (jobs : List Job)
  | claimNext (args : ClaimArgs)
  | completeJob (args : CompleteArgs)
  | failJob (args : FailArgs)
  | renewLease (jobId : JobId) (lockToken : JobLockToken) (leaseFor : Duration) (now : DateTime)
  | renewLeases (renewals : List JobLeaseRenewal) (leaseFor : Duration) (now : DateTime)
  | delayActiveJob (jobId : JobId) (lockToken : JobLockToken) (delay : Duration) (now : DateTime)
  | releaseActiveJob (jobId : JobId) (lockToken : JobLockToken) (now : DateTime)
  | recoverStalled (popped : List JobId) (now : DateTime)
  | promoteDue (now : DateTime)
  | promoteJob (jobId : JobId) (now : DateTime)
  | rescheduleJob (jobId : JobId) (delay : Duration) (now : DateTime)
  | updatePriority (jobId : JobId) (priority : JobPriority) (lifo : Option Bool)
  | updateData (jobId : JobId) (payload : Value)
  | updateProgress (jobId : JobId) (progress : Value)
  | saveStacktrace (jobId : JobId) (stacktrace : List String) (failedReason : String)
  | pause
  | resume
  | setMaxActiveJobs (maxActiveJobs : Nat)
  | clearMaxActiveJobs
  | setMaxClaims (maxClaims : Nat)
  | setClaimWindow (window : Duration)
  | clearClaimRateLimit
  | rateLimitClaimsFor (duration : Duration)
  | clearClaimRateLimitKey
  | getClaimRateLimitTtl (maxClaims : Nat)
  | elapse (elapsed : Nat)

/-- What a request did about the leases of jobs. -/
abbrev RedisEvent := LeaseTable.Event JobId JobLockToken

/-- What is known of a request from the client code that makes it. -/
def RedisRequest.Made (s : RedisServer) : RedisRequest → Prop
  | .addJobs jobs =>
      ∀ job ∈ jobs, ∃ queue name payload options now uuid,
        job = Job.new queue name payload options now uuid
  | .completeJob args =>
      ∃ cron active uuid, nextRepeatJob cron active args.now uuid = .ok args.repeatNext
  | .recoverStalled popped _ => popped.Nodup ∧ ∀ jobId ∈ popped, jobId ∈ s.keys.stalled
  | .setMaxActiveJobs maxActiveJobs => 0 < maxActiveJobs
  | .setMaxClaims maxClaims => 0 < maxClaims
  | .setClaimWindow window => 0 < window
  | _ => True

namespace RedisServer

open Redis

/-- The accepted end of a lease. -/
def endedBy (s : RedisServer) (jobId : JobId) (lockToken : JobLockToken) (accepted : Bool)
    : List RedisEvent :=
  if accepted then [.release jobId lockToken s.clock] else []

/-- When a lock that is set now expires. -/
def expiry (s : RedisServer) (lockDuration : Nat) : Int := s.clock + lockDuration

/-- The loop of `RENEW_LEASES_SCRIPT`, with the events of the renewals. -/
def renewLeases (s : RedisServer) (leaseFor : Duration) (now : DateTime)
    : List JobLeaseRenewal → RedisServer × List RedisEvent
  | [] => (s, [])
  | renewal :: rest =>
      match s.keys.renewOne renewal.jobId renewal.lockToken (addDuration now leaseFor) with
      | (_, false) => s.renewLeases leaseFor now rest
      | (keys, true) =>
          let expiry := s.expiry (lockDurationMillis leaseFor)
          let event := .renew renewal.jobId renewal.lockToken s.clock expiry
          let s := { s with keys }.setLockTtl renewal.jobId (lockDurationMillis leaseFor)
          let (s, events) := s.renewLeases leaseFor now rest
          (s, event :: events)

/-- The popped jobs that a recovery took from their workers. -/
def recoveredIds (before after : Keyspace) (popped : List JobId) : List JobId :=
  popped.filter (fun jobId =>
    (before.active.lookup jobId).isSome && !(after.active.lookup jobId).isSome)

/-- A request runs on the server. -/
def serve (s : RedisServer) : RedisRequest → RedisServer × List RedisEvent
  | .addJobs jobs => ({ s with keys := (s.keys.addJobs jobs).1 }, [])
  | .claimNext args =>
      match s.claim args with
      | (after, none) => (after, [])
      | (after, some (jobId, _)) =>
          (after, [.grant jobId args.lockToken s.clock (s.expiry args.lockDuration)])
  | .completeJob args =>
      let (keys, reply) := s.keys.complete args
      ({ s with keys }, s.endedBy args.jobId args.lockToken reply.isOk)
  | .failJob args =>
      let (keys, reply) := s.keys.fail args
      ({ s with keys }, s.endedBy args.jobId args.lockToken reply.isOk)
  | .renewLease jobId lockToken leaseFor now =>
      let (keys, reply) := s.keys.renewLease jobId lockToken (addDuration now leaseFor)
      if reply.isOk then
        ({ s with keys }.setLockTtl jobId (lockDurationMillis leaseFor),
          [.renew jobId lockToken s.clock (s.expiry (lockDurationMillis leaseFor))])
      else
        ({ s with keys }, [])
  | .renewLeases renewals leaseFor now => s.renewLeases leaseFor now renewals
  | .delayActiveJob jobId lockToken delay now =>
      let (keys, reply) := s.keys.delayActive jobId lockToken delay (addDuration now delay)
      ({ s with keys }, s.endedBy jobId lockToken reply.isOk)
  | .releaseActiveJob jobId lockToken now =>
      let (keys, reply) := s.keys.releaseActive jobId lockToken now
      ({ s with keys }, s.endedBy jobId lockToken reply.isOk)
  | .recoverStalled popped now =>
      let keys := (s.keys.recoverStalled popped now).1
      ({ s with keys }, (recoveredIds s.keys keys popped).map (fun jobId => .revoke jobId s.clock))
  | .promoteDue now => (s.promote now, [])
  | .promoteJob jobId now => ({ s with keys := (s.keys.promoteJob jobId now).1 }, [])
  | .rescheduleJob jobId delay now =>
      ({ s with keys := (s.keys.rescheduleJob jobId delay (addDuration now delay)).1 }, [])
  | .updatePriority jobId priority lifo =>
      ({ s with keys := (s.keys.updatePriority jobId priority lifo).1 }, [])
  | .updateData jobId payload => ({ s with keys := (s.keys.updateData jobId payload).1 }, [])
  | .updateProgress jobId progress =>
      ({ s with keys := (s.keys.updateProgress jobId progress).1 }, [])
  | .saveStacktrace jobId stacktrace failedReason =>
      ({ s with keys := (s.keys.saveStacktrace jobId stacktrace failedReason).1 }, [])
  | .pause => ({ s with metaHash := { s.metaHash with paused := some "1" } }, [])
  | .resume => ({ s with metaHash := { s.metaHash with paused := none } }, [])
  | .setMaxActiveJobs maxActiveJobs =>
      ({ s with metaHash := { s.metaHash with concurrency := some maxActiveJobs } }, [])
  | .clearMaxActiveJobs => ({ s with metaHash := { s.metaHash with concurrency := none } }, [])
  | .setMaxClaims maxClaims =>
      ({ s with metaHash := { s.metaHash with max := some maxClaims } }, [])
  | .setClaimWindow window =>
      ({ s with metaHash := { s.metaHash with duration := some (lockDurationMillis window) } }, [])
  | .clearClaimRateLimit =>
      ({ s with metaHash := { s.metaHash with max := none, duration := none } }, [])
  | .rateLimitClaimsFor duration =>
      let counter : ClaimCounter := { count := u64Max, pttl := some (lockDurationMillis duration) }
      ({ s with counter := some counter }, [])
  | .clearClaimRateLimitKey => ({ s with counter := none }, [])
  | .getClaimRateLimitTtl maxClaims => (s.claimRateLimitTtl maxClaims, [])
  | .elapse elapsed => (s.elapse elapsed, [])

end RedisServer

/-- A server with everything that its requests did about leases. -/
structure RedisHistory where
  server : RedisServer := {}
  events : List RedisEvent := []

/-- The history with one more request. -/
def RedisHistory.after (history : RedisHistory) (request : RedisRequest) : RedisHistory :=
  { server := (history.server.serve request).1
    events := history.events ++ (history.server.serve request).2 }

/-- Any client may make any request at any time. -/
def redisSystem : LabelledSystem RedisHistory RedisRequest where
  Step before request after :=
    request.Made before.server ∧ after = before.after request

end Lane
