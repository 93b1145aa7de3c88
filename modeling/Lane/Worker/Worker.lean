import Lane.Job.Step

/-! The worker runtime: its run loops, the registry of leases they share and the loop that renews
these leases, over any backend.
-/

namespace Lane

-----------------------------------------------------------------------------------------
-- Backends
-----------------------------------------------------------------------------------------

structure JobLeaseRenewal where
  jobId : JobId
  lockToken : JobLockToken
deriving DecidableEq

/-- The calls that finalize an execution. -/
inductive Finalizing where
  | complete (value : Value)
  | fail (error : String)
  | failDiscardingRetry (error : String)

/-- The calls that a worker makes, each as a relation between the stores around it and its
answer. Without `renewLeases` of its own, a backend renews a batch lease by lease. Every other
call, of this worker or of anyone else, is an `other` one.
-/
structure JobQueueBackend (β : Type) where
  claimNext : β → JobWorkerId → Duration → Job → β → Prop
  finalize : β → JobId → JobLockToken → Finalizing → β → Prop
  renewLease : β → JobLeaseRenewal → Duration → Result Unit → β → Prop
  renewLeases : Option (β → List JobLeaseRenewal → Duration → Result (List JobId) → β → Prop)
  other : β → β → Prop

def Finalizing.op (jobId : JobId) (lockToken : JobLockToken) (now : DateTime) (uuid : JobId)
    : Finalizing → Op
  | .complete value => .completeJob jobId lockToken value now uuid
  | .fail error => .failJob jobId lockToken error now
  | .failDiscardingRetry error => .failJobDiscardingRetry jobId lockToken error now

/-- The in-memory queue as a backend: it has no batch renewal of its own. -/
def inMemoryBackend (cron : Cron) (queue : QueueName) : JobQueueBackend InMemoryJobQueueState where
  claimNext s workerId leaseFor job t :=
    ∃ now lockToken, s.claimNext workerId leaseFor now lockToken = (t, .ok (some job))
  finalize s jobId lockToken finalizing t :=
    ∃ find now uuid,
      FreshIds s (finalizing.op jobId lockToken now uuid)
        ∧ t = step cron find queue s (finalizing.op jobId lockToken now uuid)
  renewLease s renewal leaseFor outcome t :=
    ∃ now, answered (s.renew renewal.jobId renewal.lockToken leaseFor now) = (t, outcome)
  renewLeases := none
  other s t := ∃ call : Call, FreshIds s call.op ∧ t = step cron call.find queue s call.op

-----------------------------------------------------------------------------------------
-- The worker
-----------------------------------------------------------------------------------------

/-- The shared flag `lease_lost` of one execution: the number of flags allocated before it. -/
abbrev LeaseFlag := Nat

structure ActiveJobLease where
  lockToken : JobLockToken
  leaseLost : LeaseFlag

/-- What a processor is given of the execution that it works for. -/
structure JobContext where
  jobId : JobId
  lockToken : JobLockToken
  leaseLost : LeaseFlag
deriving DecidableEq

/-- Where `process_claimed_with_mode` is after it registered its lease. -/
inductive Stage where
  | processing
  | finalizing
  | stopping
deriving DecidableEq

structure Execution where
  context : JobContext
  stage : Stage
deriving DecidableEq

/-- Where `lease_renewal_loop` is: asleep, in the midst of renewing a batch, or with the answer to
one in hand.
-/
inductive Renewing where
  | asleep
  | renewing (batch rest : List JobLeaseRenewal) (failed : List JobId)
  | answered (batch : List JobLeaseRenewal) (outcome : Result (List JobId))

structure JobWorkerConfig where
  workerId : JobWorkerId
  concurrency : Nat
  leaseDuration : Duration
  leaseRenewInterval : Duration

def JobWorkerConfig.leaseRenewalEnabled (config : JobWorkerConfig) : Prop :=
  config.leaseRenewInterval ≠ 0 ∧ config.leaseRenewInterval < config.leaseDuration

/-- A worker with its loops. `lost` holds the flags that are set. The last two fields are history:
the renewals that failed, and the flags that the failure of a whole batch set.
-/
structure JobWorker (β : Type) where
  backend : β
  loops : Nat
  activeLeases : HashMap JobId ActiveJobLease := ∅
  contexts : List JobContext := []
  claimed : List Job := []
  executions : List Execution := []
  lost : List LeaseFlag := []
  renewing : Renewing := .asleep
  failedRenewals : List JobLeaseRenewal := []
  lostInBatch : List LeaseFlag := []

def JobContext.renewal (context : JobContext) : JobLeaseRenewal :=
  { jobId := context.jobId, lockToken := context.lockToken }

def JobContext.lease (context : JobContext) : ActiveJobLease :=
  { lockToken := context.lockToken, leaseLost := context.leaseLost }

namespace JobWorker

variable {β : Type}

/-- A worker whose loops have just started. -/
def started (config : JobWorkerConfig) (backend : β) : JobWorker β :=
  { backend, loops := config.concurrency }

/-- The executions in flight, from their registration to their own end. -/
def inFlight (worker : JobWorker β) : List JobContext :=
  worker.executions.map Execution.context

/-- The context of a new execution, with a new flag. -/
def newContext (worker : JobWorker β) (jobId : JobId) (lockToken : JobLockToken) : JobContext :=
  { jobId, lockToken, leaseLost := worker.contexts.length }

/-- A new execution goes to its processor. -/
def begin (worker : JobWorker β) (context : JobContext) : JobWorker β :=
  { worker with
    contexts := worker.contexts ++ [context]
    executions := { context, stage := .processing } :: worker.executions }

def registerActiveLease (worker : JobWorker β) (context : JobContext) : JobWorker β :=
  { worker with activeLeases := worker.activeLeases.insert context.jobId context.lease }

def unregisterActiveLease (worker : JobWorker β) (jobId : JobId) : JobWorker β :=
  { worker with activeLeases := worker.activeLeases.erase jobId }

def activeLeaseRenewals (worker : JobWorker β) : List JobLeaseRenewal :=
  worker.activeLeases.entries.map (fun entry =>
    { jobId := entry.1, lockToken := entry.2.lockToken })

/-- The flags of the leases that are registered for these jobs. -/
def leaseFlags (worker : JobWorker β) (jobIds : List JobId) : List LeaseFlag :=
  jobIds.filterMap (fun jobId => (worker.activeLeases.lookup jobId).map ActiveJobLease.leaseLost)

def markLostLeases (worker : JobWorker β) (jobIds : List JobId) : JobWorker β :=
  { worker with lost := worker.leaseFlags jobIds ++ worker.lost }

/-- The execution goes on to its next stage. -/
def moveTo (worker : JobWorker β) (execution : Execution) (stage : Stage) : JobWorker β :=
  { worker with
    executions := { execution with stage } :: worker.executions.erase execution }

/-- The execution is over. -/
def finish (worker : JobWorker β) (execution : Execution) : JobWorker β :=
  { worker with executions := worker.executions.erase execution }

/-- The steps that matter to the registry, by the execution or the answer they are about. -/
inductive Label where
  | registers (jobId : JobId)
  | marks (batch : List JobLeaseRenewal) (outcome : Result (List JobId))
  | other

/-- The steps of the run loops, of the contexts that processors hold, of the renewal loop and of
everyone else on the backend. A step ends where the code awaits.
-/
inductive Step (calls : JobQueueBackend β) (config : JobWorkerConfig)
    : JobWorker β → Label → JobWorker β → Prop
  | claims {worker : JobWorker β} {job : Job} {after : β}
    (idle : worker.claimed.length + worker.executions.length < worker.loops)
    (claimed : calls.claimNext worker.backend config.workerId config.leaseDuration job after)
    : Step calls config worker .other
        { worker with backend := after, claimed := job :: worker.claimed }
  | refuses {worker : JobWorker β} {before rest : List Job} {job : Job}
    (claimed : worker.claimed = before ++ job :: rest) (unlocked : job.lockToken = none)
    : Step calls config worker .other { worker with claimed := before ++ rest }
  | failsDeferred {worker : JobWorker β} {before rest : List Job} {job : Job}
    {lockToken : JobLockToken} {reason : String} {after : β}
    (claimed : worker.claimed = before ++ job :: rest)
    (locked : job.lockToken = some lockToken) (deferred : job.deferredFailure = some reason)
    (finalized : calls.finalize worker.backend job.id lockToken (.failDiscardingRetry reason) after)
    : Step calls config worker .other { worker with backend := after, claimed := before ++ rest }
  | registers {worker : JobWorker β} {before rest : List Job} {job : Job}
    {lockToken : JobLockToken} (claimed : worker.claimed = before ++ job :: rest)
    (locked : job.lockToken = some lockToken) (undeferred : job.deferredFailure = none)
    : Step calls config worker (.registers job.id)
        (({ worker with claimed := before ++ rest }.begin
          (worker.newContext job.id lockToken)).registerActiveLease
            (worker.newContext job.id lockToken))
  -- The context may have outlived its execution, and the flag may have been set since
  -- `ensure_lease` read it.
  | renewsItself {worker : JobWorker β} {context : JobContext} {after : β}
    (held : context ∈ worker.contexts)
    (renewed : calls.renewLease worker.backend context.renewal config.leaseDuration (.ok ()) after)
    : Step calls config worker .other { worker with backend := after }
  | failsToRenewItself {worker : JobWorker β} {context : JobContext} {error : LaneError} {after : β}
    (held : context ∈ worker.contexts)
    (renewed : calls.renewLease worker.backend context.renewal config.leaseDuration (.error error)
      after)
    : Step calls config worker .other
        { worker with
          backend := after
          lost := context.leaseLost :: worker.lost
          failedRenewals := context.renewal :: worker.failedRenewals }
  | returnsLost {worker : JobWorker β} {execution : Execution}
    (member : execution ∈ worker.executions) (stage : execution.stage = .processing)
    (lost : execution.context.leaseLost ∈ worker.lost)
    : Step calls config worker .other (worker.moveTo execution .stopping)
  | returns {worker : JobWorker β} {execution : Execution}
    (member : execution ∈ worker.executions) (stage : execution.stage = .processing)
    (owned : execution.context.leaseLost ∉ worker.lost)
    : Step calls config worker .other (worker.moveTo execution .finalizing)
  | finalizes {worker : JobWorker β} {execution : Execution} {finalizing : Finalizing} {after : β}
    (member : execution ∈ worker.executions) (stage : execution.stage = .finalizing)
    (finalized : calls.finalize worker.backend execution.context.jobId
      execution.context.lockToken finalizing after)
    : Step calls config worker .other
        ({ worker with backend := after }.moveTo execution .stopping)
  | stops {worker : JobWorker β} {execution : Execution}
    (member : execution ∈ worker.executions) (stage : execution.stage = .stopping)
    : Step calls config worker .other
        ((worker.finish execution).unregisterActiveLease execution.context.jobId)
  -- A processor that panics takes its run loop with it, and nothing unregisters its lease.
  | panics {worker : JobWorker β} {execution : Execution}
    (member : execution ∈ worker.executions) (stage : execution.stage = .processing)
    : Step calls config worker .other
        { worker.finish execution with loops := worker.loops - 1 }
  | wakes {worker : JobWorker β} {batch : List JobLeaseRenewal}
    (enabled : config.leaseRenewalEnabled) (asleep : worker.renewing = .asleep)
    (copied : batch.Perm worker.activeLeaseRenewals) (nonempty : batch ≠ [])
    : Step calls config worker .other { worker with renewing := .renewing batch batch [] }
  | renewsNext {worker : JobWorker β} {batch rest : List JobLeaseRenewal} {failed : List JobId}
    {renewal : JobLeaseRenewal} {after : β} (default : calls.renewLeases = none)
    (renewing : worker.renewing = .renewing batch (renewal :: rest) failed)
    (renewed : calls.renewLease worker.backend renewal config.leaseDuration (.ok ()) after)
    : Step calls config worker .other
        { worker with backend := after, renewing := .renewing batch rest failed }
  | failsToRenewNext {worker : JobWorker β} {batch rest : List JobLeaseRenewal}
    {failed : List JobId} {renewal : JobLeaseRenewal} {error : LaneError} {after : β}
    (default : calls.renewLeases = none)
    (renewing : worker.renewing = .renewing batch (renewal :: rest) failed)
    (renewed : calls.renewLease worker.backend renewal config.leaseDuration (.error error) after)
    : Step calls config worker .other
        { worker with
          backend := after
          renewing := .renewing batch rest (failed ++ [renewal.jobId])
          failedRenewals := renewal :: worker.failedRenewals }
  | renewsAll {worker : JobWorker β} {batch : List JobLeaseRenewal} {failed : List JobId}
    (default : calls.renewLeases = none) (renewing : worker.renewing = .renewing batch [] failed)
    : Step calls config worker .other { worker with renewing := .answered batch (.ok failed) }
  | renewsBatch {worker : JobWorker β} {batch : List JobLeaseRenewal} {after : β}
    {renewLeases : β → List JobLeaseRenewal → Duration → Result (List JobId) → β → Prop}
    {failed : List JobId} (own : calls.renewLeases = some renewLeases)
    (renewing : worker.renewing = .renewing batch batch [])
    (renewed : renewLeases worker.backend batch config.leaseDuration (.ok failed) after)
    : Step calls config worker .other
        { worker with
          backend := after
          renewing := .answered batch (.ok failed)
          failedRenewals :=
            batch.filter (fun renewal => renewal.jobId ∈ failed) ++ worker.failedRenewals }
  | failsToRenewBatch {worker : JobWorker β} {batch : List JobLeaseRenewal} {after : β}
    {renewLeases : β → List JobLeaseRenewal → Duration → Result (List JobId) → β → Prop}
    {error : LaneError} (own : calls.renewLeases = some renewLeases)
    (renewing : worker.renewing = .renewing batch batch [])
    (renewed : renewLeases worker.backend batch config.leaseDuration (.error error) after)
    : Step calls config worker .other
        { worker with backend := after, renewing := .answered batch (.error error) }
  | marks {worker : JobWorker β} {batch : List JobLeaseRenewal} {failed : List JobId}
    (answered : worker.renewing = .answered batch (.ok failed))
    : Step calls config worker (.marks batch (.ok failed))
        { worker.markLostLeases failed with renewing := .asleep }
  | marksBatch {worker : JobWorker β} {batch : List JobLeaseRenewal} {error : LaneError}
    (answered : worker.renewing = .answered batch (.error error))
    : Step calls config worker (.marks batch (.error error))
        { worker.markLostLeases (batch.map JobLeaseRenewal.jobId) with
          renewing := .asleep
          lostInBatch :=
            worker.leaseFlags (batch.map JobLeaseRenewal.jobId) ++ worker.lostInBatch }
  | others {worker : JobWorker β} {after : β} (called : calls.other worker.backend after)
    : Step calls config worker .other { worker with backend := after }

/-- A worker as a transition system. -/
def system (calls : JobQueueBackend β) (config : JobWorkerConfig)
    : LabelledSystem (JobWorker β) Label where
  Step := Step calls config

end JobWorker

end Lane
