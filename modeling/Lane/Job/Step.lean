import Lane.Job.Processing
import Lane.Library.LabelledSystem

/-! The public operations as steps of one transition system, and the states they reach. -/

namespace Lane

/-- The mutating operations with their arguments. A `clock` argument is the wall clock that
an operation without a timestamp argument reads, and a `uuid` is the id that is generated
for a job without a custom one.
-/
inductive Op where
  | addAt (name : String) (payload : Value) (options : JobOptions) (now : DateTime)
    (uuid : JobId)
  | addManyAt (specs : List (JobSpec × JobId)) (now : DateTime)
  | addFlowAt (parent : JobSpec × JobId) (children : List (JobSpec × JobId))
    (now : DateTime)
  | addFlowChildrenAt (parentId : JobId) (lockToken : JobLockToken)
    (children : List (JobSpec × JobId)) (now : DateTime)
  | removeUnprocessedChildren (parentId : JobId) (now : DateTime)
  | removeChildDependency (childId : JobId) (now : DateTime)
  | remove (jobId : JobId) (clock : DateTime)
  | removeDeduplicationKey (deduplicationId : String) (clock : DateTime)
  | upsertRepeat (spec : JobSpec × JobId) (now : DateTime)
  | removeRepeat (repeatKey : String) (clock : DateTime)
  | promote (jobId : JobId) (now : DateTime)
  | reschedule (jobId : JobId) (delay : Duration) (now : DateTime)
  | retry (jobId : JobId) (now : DateTime)
  | renew (jobId : JobId) (lockToken : JobLockToken) (leaseFor : Duration)
    (now : DateTime)
  | delayActive (jobId : JobId) (lockToken : JobLockToken) (delay : Duration)
    (now : DateTime)
  | releaseActive (jobId : JobId) (lockToken : JobLockToken) (now : DateTime)
  | setPriorityOrder (jobId : JobId) (priority : JobPriority) (lifo : Option Bool)
  | setData (jobId : JobId) (payload : Value)
  | setProgress (jobId : JobId) (progress : Value) (clock : DateTime)
  | saveStacktrace (jobId : JobId) (stacktrace : List String) (failedReason : String)
  | log (jobId : JobId) (line : String) (keep : Nat) (now : DateTime)
  | clearLogs (jobId : JobId) (keep : Nat)
  | clean (state : JobState) (grace : Duration) (limit : Nat) (now : DateTime)
  | drain (includeDelayed : Bool) (clock : Nat → DateTime)
  | obliterate (force : Bool)
  | claimNext (workerId : JobWorkerId) (leaseFor : Duration) (now : DateTime)
    (lockToken : JobLockToken)
  | completeJob (jobId : JobId) (lockToken : JobLockToken) (value : Value)
    (now : DateTime) (uuid : JobId)
  | failJob (jobId : JobId) (lockToken : JobLockToken) (error : String) (now : DateTime)
  | failJobDiscardingRetry (jobId : JobId) (lockToken : JobLockToken) (error : String)
    (now : DateTime)
  | trimEvents (maxLen : Nat)
  | promoteDueJobs (now : DateTime)
  | recoverStalledJobs (now : DateTime)
  | pause (clock : DateTime)
  | resume (clock : DateTime)

/-- Forgets the value of a result. -/
def answered {α : Type} (outcome : InMemoryJobQueueState × Result α)
    : InMemoryJobQueueState × Result Unit :=
  (outcome.1, outcome.2.map (fun _ => ()))

/-- One operation: the state it leaves and whether it was accepted. -/
def perform (cron : Cron) (find : Find) (queue : QueueName) (s : InMemoryJobQueueState)
    : Op → InMemoryJobQueueState × Result Unit
  | .addAt name payload options now uuid =>
      answered (s.addAt cron find queue name payload options now uuid)
  | .addManyAt specs now => answered (s.addManyAt cron find queue specs now)
  | .addFlowAt parent children now => answered (s.addFlowAt cron find queue parent children now)
  | .addFlowChildrenAt parentId lockToken children now =>
      answered (s.addFlowChildrenAt cron find queue parentId lockToken children now)
  | .removeUnprocessedChildren parentId now =>
      answered (s.removeUnprocessedChildren parentId now)
  | .removeChildDependency childId now => answered (s.removeChildDependency childId now)
  | .remove jobId clock => answered (s.remove jobId clock)
  | .removeDeduplicationKey deduplicationId clock =>
      answered (s.removeDeduplicationKey find deduplicationId clock)
  | .upsertRepeat spec now => answered (s.upsertRepeat cron find queue spec now)
  | .removeRepeat repeatKey clock => answered (s.removeRepeat find repeatKey clock)
  | .promote jobId now => answered (s.promote jobId now)
  | .reschedule jobId delay now => answered (s.reschedule jobId delay now)
  | .retry jobId now => answered (s.retry find jobId now)
  | .renew jobId lockToken leaseFor now => answered (s.renew jobId lockToken leaseFor now)
  | .delayActive jobId lockToken delay now =>
      answered (s.delayActive jobId lockToken delay now)
  | .releaseActive jobId lockToken now => answered (s.releaseActive jobId lockToken now)
  | .setPriorityOrder jobId priority lifo => answered (s.setPriorityOrder jobId priority lifo)
  | .setData jobId payload => answered (s.setData jobId payload)
  | .setProgress jobId progress clock => answered (s.setProgress jobId progress clock)
  | .saveStacktrace jobId stacktrace failedReason =>
      answered (s.saveStacktrace jobId stacktrace failedReason)
  | .log jobId line keep now => answered (s.log jobId line keep now)
  | .clearLogs jobId keep => answered (s.clearLogs jobId keep)
  | .clean state grace limit now => answered (s.clean state grace limit now)
  | .drain includeDelayed clock => answered (s.drain find includeDelayed clock)
  | .obliterate force => answered (s.obliterate force)
  | .claimNext workerId leaseFor now lockToken =>
      answered (s.claimNext workerId leaseFor now lockToken)
  | .completeJob jobId lockToken value now uuid =>
      answered (s.completeJob cron jobId lockToken value now uuid)
  | .failJob jobId lockToken error now => answered (s.failJob jobId lockToken error now)
  | .failJobDiscardingRetry jobId lockToken error now =>
      answered (s.failJobDiscardingRetry jobId lockToken error now)
  | .trimEvents maxLen => ((s.trimEventsLocked maxLen).1, .ok ())
  | .promoteDueJobs now => ((s.promoteDueLocked now).1, .ok ())
  | .recoverStalledJobs now => answered (s.recoverStalledJobs now)
  | .pause clock => (s.pause clock, .ok ())
  | .resume clock => (s.resume clock, .ok ())

/-- The state an operation leaves. -/
def step (cron : Cron) (find : Find) (queue : QueueName) (s : InMemoryJobQueueState)
    (op : Op)
    : InMemoryJobQueueState :=
  (perform cron find queue s op).1

-----------------------------------------------------------------------------------------
-- Generated ids
-----------------------------------------------------------------------------------------

/-- The ids that the uuid crate generates for an operation. -/
def Op.generatedIds : Op → List JobId
  | .addAt _ _ _ _ uuid => [uuid]
  | .addManyAt specs _ => specs.map Prod.snd
  | .addFlowAt parent children _ => parent.2 :: children.map Prod.snd
  | .addFlowChildrenAt _ _ children _ => children.map Prod.snd
  | .upsertRepeat spec _ => [spec.2]
  | .completeJob _ _ _ _ uuid => [uuid]
  | _ => []

/-- The ids that an operation's arguments carry. -/
def Op.namedIds : Op → List JobId
  | .addAt _ _ options _ _ => options.jobId.toList
  | .addManyAt specs _ => specs.flatMap (fun spec => spec.1.options.jobId.toList)
  | .addFlowAt parent children _ =>
      (parent :: children).flatMap (fun spec => spec.1.options.jobId.toList)
  | .addFlowChildrenAt parentId _ children _ =>
      parentId :: children.flatMap (fun spec => spec.1.options.jobId.toList)
  | .upsertRepeat spec _ => spec.1.options.jobId.toList
  | .completeJob jobId _ _ _ _ => [jobId]
  | _ => []

/-- The ids a record carries: its own, its parent's and its children's. -/
def Job.mentionedIds (job : Job) : List JobId := job.id :: job.parentId.toList ++ job.childIds

/-- The ids of a queue state, kept candidates included. -/
def InMemoryJobQueueState.mentionedIds (s : InMemoryJobQueueState) : List JobId :=
  s.jobs.values.flatMap Job.mentionedIds
    ++ s.deduplicationNext.entries.flatMap (fun entry => entry.2.mentionedIds)
    ++ s.deduplicationNextFlows.entries.flatMap (fun entry =>
      (entry.2.parent :: entry.2.children).flatMap Job.mentionedIds)

/-- A random uuid is new: it occurs nowhere in the queue and in no other argument. -/
def FreshIds (s : InMemoryJobQueueState) (op : Op) : Prop :=
  op.generatedIds.Nodup
    ∧ ∀ id ∈ op.generatedIds, id ∉ s.mentionedIds ∧ id ∉ op.namedIds

instance (s : InMemoryJobQueueState) (op : Op) : Decidable (FreshIds s op) :=
  inferInstanceAs (Decidable (_ ∧ _))

-----------------------------------------------------------------------------------------
-- Runs of the queue
-----------------------------------------------------------------------------------------

/-- An operation together with the order in which its searches visit the job table. -/
structure Call where
  op : Op
  find : Find := .first

/-- The queue as a transition system over the calls that it serves one after the other. -/
def queueSystem (cron : Cron) (queue : QueueName)
    : LabelledSystem InMemoryJobQueueState Call where
  Step s call t := FreshIds s call.op ∧ t = step cron call.find queue s call.op

/-- States reachable from an empty queue. -/
def Reachable (cron : Cron) (queue : QueueName) (s : InMemoryJobQueueState) : Prop :=
  (queueSystem cron queue).Reaches {} s

/-- Runs from an empty queue whose calls all meet a condition. -/
def ReachableWhen (cron : Cron) (queue : QueueName)
    (allow : InMemoryJobQueueState → Call → Prop) (s : InMemoryJobQueueState)
    : Prop :=
  (queueSystem cron queue).Run allow {} s

/-- A queue without cron schedules. -/
def noCron : Cron := { parse := fun _ => .error "unsupported" }

/-- Serves calls one after the other. -/
def serve (cron : Cron) (queue : QueueName)
    : InMemoryJobQueueState → List Call → InMemoryJobQueueState
  | s, [] => s
  | s, call :: rest => serve cron queue (step cron call.find queue s call.op) rest

/-- The generated ids are new at each of the calls. -/
def FreshCalls (cron : Cron) (queue : QueueName) : InMemoryJobQueueState → List Call → Prop
  | _, [] => True
  | s, call :: rest =>
      FreshIds s call.op ∧ FreshCalls cron queue (step cron call.find queue s call.op) rest

instance decidableFreshCalls (cron : Cron) (queue : QueueName)
    : (s : InMemoryJobQueueState) → (calls : List Call) → Decidable (FreshCalls cron queue s calls)
  | _, [] => isTrue trivial
  | s, call :: rest =>
      have := decidableFreshCalls cron queue (step cron call.find queue s call.op) rest
      inferInstanceAs (Decidable (_ ∧ _))

/-- The calls have new ids and each is served in a state that allows it. -/
def AllowedCalls (cron : Cron) (queue : QueueName) (allow : InMemoryJobQueueState → Call → Prop)
    : InMemoryJobQueueState → List Call → Prop
  | _, [] => True
  | s, call :: rest =>
      (allow s call ∧ FreshIds s call.op)
        ∧ AllowedCalls cron queue allow (step cron call.find queue s call.op) rest

theorem allowedCalls_of_fresh {cron : Cron} {queue : QueueName} {s : InMemoryJobQueueState}
    {calls : List Call} (fresh : FreshCalls cron queue s calls)
    : AllowedCalls cron queue (fun _ _ => True) s calls := by
  induction calls generalizing s with
  | nil => trivial
  | cons call rest ih => exact ⟨⟨trivial, fresh.1⟩, ih fresh.2⟩

/-- Serving allowed calls is a run that meets the condition, by induction on the calls. -/
theorem run_serve {cron : Cron} {queue : QueueName}
    {allow : InMemoryJobQueueState → Call → Prop} {s : InMemoryJobQueueState} {calls : List Call}
    (allowed : AllowedCalls cron queue allow s calls)
    : (queueSystem cron queue).Run allow s (serve cron queue s calls) := by
  induction calls generalizing s with
  | nil => exact .refl s
  | cons call rest ih =>
      have first : (queueSystem cron queue).Run allow s (step cron call.find queue s call.op) :=
        .single (a := call) allowed.1.1 ⟨allowed.1.2, rfl⟩
      exact first.trans (ih allowed.2)

theorem reaches_serve {cron : Cron} {queue : QueueName} {s : InMemoryJobQueueState}
    {calls : List Call} (fresh : FreshCalls cron queue s calls)
    : (queueSystem cron queue).Reaches s (serve cron queue s calls) :=
  run_serve (allowedCalls_of_fresh fresh)

end Lane
