import Lane.Job.Dependencies
import Lane.Job.Snapshot
import Lane.Library.Record

/-! The snapshot file: the JSON document that serde writes for a snapshot, field by field, and the
reading of it. A field that the source skips when it is empty is left out, a missing field of an
optional or defaulted type reads as absent or as its default, and other missing fields are errors.
-/

namespace Lane

/-- What the document takes from other crates: the texts of dates, which read back, and the text
of a decoding error.
-/
structure Serde where
  dateText : DateTime → String
  parseDate : String → Option DateTime
  parse_dateText : ∀ time, parseDate (dateText time) = some time
  errorText : Value → String

-----------------------------------------------------------------------------------------
-- Plain values
-----------------------------------------------------------------------------------------

def Value.isNull : Value → Bool
  | .null => true
  | _ => false

def readString : Value → Option String
  | .string text => some text
  | _ => none

def readBool : Value → Option Bool
  | .bool value => some value
  | _ => none

def writeNat (value : Nat) : Value := .number value

/-- An unsigned integer; the types of the source keep what is written within their ranges. -/
def readNat : Value → Option Nat
  | .number value => if 0 ≤ value then some value.toNat else none
  | _ => none

/-- JSON has no number for an infinity or a NaN, and serde writes `null` for them. -/
def writeDouble (value : Float) : Value := if value.isFinite then .float value else .null

def readDouble : Value → Option Float
  | .float value => some value
  | .number value => some (.ofInt value)
  | _ => none

def readList {α : Type} (read : Value → Option α) : Value → Option (List α)
  | .array items => items.mapM read
  | _ => none

/-- An absent option is written as `null`. -/
def writeOption {α : Type} (write : α → Value) : Option α → Value
  | none => .null
  | some value => write value

/-- The entries of a `BTreeMap`, in the order of their keys. -/
def writeMap {α : Type} (write : α → Value) (map : HashMap String α) : Value :=
  .object ((orderedEntries map).map (fun entry => (entry.1, write entry.2)))

def readMap {α : Type} (read : Value → Option α) : Value → Option (HashMap String α)
  | .object fields =>
      (fields.mapM (fun field =>
        (read field.2).map (fun value => (field.1, value)))).map collectMap
  | _ => none

/-- What an optional type reads: missing and `null` are both absent. -/
def readOption {α : Type} (read : Value → Option α) : Option Value → Option (Option α)
  | none => some none
  | some .null => some none
  | some value => (read value).map some

/-- What a type with a default reads. -/
def readDefault {α : Type} (read : Value → Option α) (default : α) : Option Value → Option α
  | none => some default
  | some value => read value

def requiredField {α : Type} (fields : List (String × Value)) (name : String)
    (read : Value → Option α)
    : Option α :=
  (fields.lookup name).bind read

def optionalField {α : Type} (fields : List (String × Value)) (name : String)
    (read : Value → Option α)
    : Option (Option α) :=
  readOption read (fields.lookup name)

def defaultedField {α : Type} (fields : List (String × Value)) (name : String)
    (read : Value → Option α) (default : α)
    : Option α :=
  readDefault read default (fields.lookup name)

/-- A document of the fields that are not skipped. -/
def document (fields : List (String × Option Value)) : Value := .object (Record.present fields)

-----------------------------------------------------------------------------------------
-- Times
-----------------------------------------------------------------------------------------

def nanosPerSecond : Nat := 1000000000

def writeDuration (duration : Duration) : Value :=
  document
    [ ("secs", some (writeNat (duration / nanosPerSecond))),
      ("nanos", some (writeNat (duration % nanosPerSecond))) ]

def readDuration : Value → Option Duration
  | .object fields => do
      let secs ← requiredField fields "secs" readNat
      let nanos ← requiredField fields "nanos" readNat
      return secs * nanosPerSecond + nanos
  | _ => none

section

variable (serde : Serde)

def writeDate (time : DateTime) : Value := .string (serde.dateText time)

def readDate (written : Value) : Option DateTime := (readString written).bind serde.parseDate

-----------------------------------------------------------------------------------------
-- Job options
-----------------------------------------------------------------------------------------

def RetryPolicy.serialize (policy : RetryPolicy) : Value :=
  document
    [ ("max_retries", some (writeNat policy.maxRetries)),
      ("initial_delay", some (writeDuration policy.initialDelay)),
      ("max_delay", some (writeDuration policy.maxDelay)),
      ("multiplier", some (writeDouble policy.multiplier)) ]

def RetryPolicy.deserialize : Value → Option RetryPolicy
  | .object fields => do
      let maxRetries ← requiredField fields "max_retries" readNat
      let initialDelay ← requiredField fields "initial_delay" readDuration
      let maxDelay ← requiredField fields "max_delay" readDuration
      let multiplier ← requiredField fields "multiplier" readDouble
      return { maxRetries, initialDelay, maxDelay, multiplier }
  | _ => none

/-- The interval of a schedule, which is a field of the settings that it belongs to. -/
def RepeatSchedule.interval : RepeatSchedule → Option Duration
  | .every interval => some interval
  | .cron _ => none

def RepeatSchedule.expression : RepeatSchedule → Option String
  | .every _ => none
  | .cron expression => some expression

/-- The untagged schedule: an interval if the fields have one, else a cron expression. -/
def RepeatSchedule.deserialize (fields : List (String × Value)) : Option RepeatSchedule :=
  ((requiredField fields "interval" readDuration).map .every).or
    ((requiredField fields "cron" readString).map .cron)

/-- The fields of the schedule come first, without a document of their own. -/
def RepeatOptions.serialize (options : RepeatOptions) : Value :=
  document
    [ ("interval", options.schedule.interval.map writeDuration),
      ("cron", options.schedule.expression.map .string),
      ("limit", some (writeOption writeNat options.limit)),
      ("end_at", some (writeOption (writeDate serde) options.endAt)),
      ("key", some (writeOption .string options.key)) ]

def RepeatOptions.deserialize : Value → Option RepeatOptions
  | .object fields => do
      let schedule ← RepeatSchedule.deserialize fields
      let limit ← optionalField fields "limit" readNat
      let endAt ← optionalField fields "end_at" (readDate serde)
      let key ← optionalField fields "key" readString
      return { schedule, limit, endAt, key }
  | _ => none

def DeduplicationOptions.serialize (options : DeduplicationOptions) : Value :=
  document
    [ ("id", some (.string options.id)),
      ("ttl", options.ttl.map writeDuration),
      ("replace", some (.bool options.replace)),
      ("keep_last_if_active", some (.bool options.keepLastIfActive)),
      ("extend", some (.bool options.extend)) ]

def DeduplicationOptions.deserialize : Value → Option DeduplicationOptions
  | .object fields => do
      let id ← requiredField fields "id" readString
      let ttl ← optionalField fields "ttl" readDuration
      let replace ← defaultedField fields "replace" readBool false
      let keepLastIfActive ← defaultedField fields "keep_last_if_active" readBool false
      let extend ← defaultedField fields "extend" readBool false
      return { id, ttl, replace, keepLastIfActive, extend }
  | _ => none

def JobRetention.serialize (retention : JobRetention) : Value :=
  document
    [ ("age", retention.age.map writeDuration),
      ("count", retention.count.map writeNat),
      ("limit", retention.limit.map writeNat) ]

def JobRetention.deserialize : Value → Option JobRetention
  | .object fields => do
      let age ← optionalField fields "age" readDuration
      let count ← optionalField fields "count" readNat
      let limit ← optionalField fields "limit" readNat
      return { age, count, limit }
  | _ => none

/-- A flag that is skipped when it is false. -/
def writeFlag (flag : Bool) : Option Value := if flag then some (.bool true) else none

def JobOptions.serialize (options : JobOptions) : Value :=
  document
    [ ("job_id", options.jobId.map .string),
      ("priority", some (writeNat options.priority)),
      ("lifo", writeFlag options.lifo),
      ("delay", some (writeOption writeDuration options.delay)),
      ("retry_policy", some options.retryPolicy.serialize),
      ("timeout", some (writeOption writeDuration options.timeout)),
      ("remove_on_complete", some (.bool options.removeOnComplete)),
      ("completion_retention", options.completionRetention.map JobRetention.serialize),
      ("remove_on_fail", some (.bool options.removeOnFail)),
      ("failure_retention", options.failureRetention.map JobRetention.serialize),
      ("max_stalled_count", some (writeNat options.maxStalledCount)),
      ("repeat", options.repeatOptions.map (RepeatOptions.serialize serde)),
      ("deduplication", options.deduplication.map DeduplicationOptions.serialize),
      ("ignore_dependency_on_failure", writeFlag options.ignoreDependencyOnFailure),
      ("remove_dependency_on_failure", writeFlag options.removeDependencyOnFailure),
      ("continue_parent_on_failure", writeFlag options.continueParentOnFailure),
      ("fail_parent_on_failure", writeFlag options.failParentOnFailure) ]

def JobOptions.deserialize : Value → Option JobOptions
  | .object fields => do
      let jobId ← optionalField fields "job_id" readString
      let priority ← requiredField fields "priority" readNat
      let lifo ← defaultedField fields "lifo" readBool false
      let delay ← optionalField fields "delay" readDuration
      let retryPolicy ← requiredField fields "retry_policy" RetryPolicy.deserialize
      let timeout ← optionalField fields "timeout" readDuration
      let removeOnComplete ← requiredField fields "remove_on_complete" readBool
      let completionRetention ←
        optionalField fields "completion_retention" JobRetention.deserialize
      let removeOnFail ← requiredField fields "remove_on_fail" readBool
      let failureRetention ← optionalField fields "failure_retention" JobRetention.deserialize
      let maxStalledCount ← requiredField fields "max_stalled_count" readNat
      let repeatOptions ← optionalField fields "repeat" (RepeatOptions.deserialize serde)
      let deduplication ← optionalField fields "deduplication" DeduplicationOptions.deserialize
      let ignoreDependencyOnFailure ←
        defaultedField fields "ignore_dependency_on_failure" readBool false
      let removeDependencyOnFailure ←
        defaultedField fields "remove_dependency_on_failure" readBool false
      let continueParentOnFailure ←
        defaultedField fields "continue_parent_on_failure" readBool false
      let failParentOnFailure ← defaultedField fields "fail_parent_on_failure" readBool false
      return {
        jobId, priority, lifo, delay, retryPolicy, timeout, removeOnComplete, completionRetention,
        removeOnFail, failureRetention, maxStalledCount, repeatOptions, deduplication,
        ignoreDependencyOnFailure, removeDependencyOnFailure, continueParentOnFailure,
        failParentOnFailure }
  | _ => none

-----------------------------------------------------------------------------------------
-- Jobs and events
-----------------------------------------------------------------------------------------

def JobState.serialize : JobState → Value
  | .waiting => .string "waiting"
  | .delayed => .string "delayed"
  | .active => .string "active"
  | .waitingChildren => .string "waiting_children"
  | .completed => .string "completed"
  | .failed => .string "failed"

def JobState.deserialize : Value → Option JobState
  | .string "waiting" => some .waiting
  | .string "delayed" => some .delayed
  | .string "active" => some .active
  | .string "waiting_children" => some .waitingChildren
  | .string "completed" => some .completed
  | .string "failed" => some .failed
  | _ => none

def JobLogEntry.serialize (entry : JobLogEntry) : Value :=
  document
    [ ("timestamp", some (writeDate serde entry.timestamp)),
      ("line", some (.string entry.line)) ]

def JobLogEntry.deserialize : Value → Option JobLogEntry
  | .object fields => do
      let timestamp ← requiredField fields "timestamp" (readDate serde)
      let line ← requiredField fields "line" readString
      return { timestamp, line }
  | _ => none

/-- A list that is skipped when it is empty. -/
def writeItems {α : Type} (write : α → Value) (items : List α) : Option Value :=
  if items.isEmpty then none else some (.array (items.map write))

/-- The lock token is not written. -/
def Job.serialize (job : Job) : Value :=
  document
    [ ("id", some (.string job.id)),
      ("queue", some (.string job.queue)),
      ("name", some (.string job.name)),
      ("payload", some job.payload),
      ("options", some (job.options.serialize serde)),
      ("priority", some (writeNat job.priority)),
      ("state", some job.state.serialize),
      ("attempts_made", some (writeNat job.attemptsMade)),
      ("stalled_count", some (writeNat job.stalledCount)),
      ("created_at", some (writeDate serde job.createdAt)),
      ("scheduled_at", some (writeDate serde job.scheduledAt)),
      ("enqueued_seq", some (writeNat job.enqueuedSeq)),
      ("processed_at", some (writeOption (writeDate serde) job.processedAt)),
      ("finished_at", some (writeOption (writeDate serde) job.finishedAt)),
      ("worker_id", some (writeOption .string job.workerId)),
      ("lease_expires_at", some (writeOption (writeDate serde) job.leaseExpiresAt)),
      ("deferred_failure", job.deferredFailure.map .string),
      ("failed_reason", some (writeOption .string job.failedReason)),
      ("stacktrace", writeItems .string job.stacktrace),
      ("return_value", some (job.returnValue.getD .null)),
      ("progress", some (job.progress.getD .null)),
      ("logs", some (.array (job.logs.map (JobLogEntry.serialize serde)))),
      ("parent_id", some (writeOption .string job.parentId)),
      ("child_ids", some (.array (job.childIds.map .string))),
      ("repeat_key", job.repeatKey.map .string),
      ("repeat_count", some (writeNat job.repeatCount)),
      ("deduplication_expires_at", job.deduplicationExpiresAt.map (writeDate serde)) ]

def Job.deserialize : Value → Option Job
  | .object fields => do
      let id ← requiredField fields "id" readString
      let queue ← requiredField fields "queue" readString
      let name ← requiredField fields "name" readString
      let payload ← requiredField fields "payload" some
      let options ← requiredField fields "options" (JobOptions.deserialize serde)
      let priority ← requiredField fields "priority" readNat
      let state ← requiredField fields "state" JobState.deserialize
      let attemptsMade ← requiredField fields "attempts_made" readNat
      let stalledCount ← requiredField fields "stalled_count" readNat
      let createdAt ← requiredField fields "created_at" (readDate serde)
      let scheduledAt ← requiredField fields "scheduled_at" (readDate serde)
      let enqueuedSeq ← defaultedField fields "enqueued_seq" readNat 0
      let processedAt ← optionalField fields "processed_at" (readDate serde)
      let finishedAt ← optionalField fields "finished_at" (readDate serde)
      let workerId ← optionalField fields "worker_id" readString
      let leaseExpiresAt ← optionalField fields "lease_expires_at" (readDate serde)
      let deferredFailure ← optionalField fields "deferred_failure" readString
      let failedReason ← optionalField fields "failed_reason" readString
      let stacktrace ← defaultedField fields "stacktrace" (readList readString) []
      let returnValue ← optionalField fields "return_value" some
      let progress ← optionalField fields "progress" some
      let logs ← requiredField fields "logs" (readList (JobLogEntry.deserialize serde))
      let parentId ← optionalField fields "parent_id" readString
      let childIds ← requiredField fields "child_ids" (readList readString)
      let repeatKey ← optionalField fields "repeat_key" readString
      let repeatCount ← defaultedField fields "repeat_count" readNat 0
      let deduplicationExpiresAt ← optionalField fields "deduplication_expires_at" (readDate serde)
      return {
        id, queue, name, payload, options, priority, state, attemptsMade, stalledCount, createdAt,
        scheduledAt, enqueuedSeq, processedAt, finishedAt, workerId, lockToken := none,
        leaseExpiresAt, deferredFailure, failedReason, stacktrace, returnValue, progress, logs,
        parentId, childIds, repeatKey, repeatCount, deduplicationExpiresAt }
  | _ => none

def JobFlow.serialize (flow : JobFlow) : Value :=
  document
    [ ("parent", some (flow.parent.serialize serde)),
      ("children", some (.array (flow.children.map (Job.serialize serde)))) ]

def JobFlow.deserialize : Value → Option JobFlow
  | .object fields => do
      let parent ← requiredField fields "parent" (Job.deserialize serde)
      let children ← requiredField fields "children" (readList (Job.deserialize serde))
      return { parent, children }
  | _ => none

/-- The fields of an event are a map with few, distinct keys, kept in their written order. -/
def readFields : Value → Option (List (String × Value))
  | .object fields => some fields
  | _ => none

def writeFields (fields : List (String × Value)) : Option Value :=
  if fields.isEmpty then none else some (.object fields)

def JobEvent.serialize (event : JobEvent) : Value :=
  document
    [ ("id", some (.string event.id)),
      ("event", some (.string event.event)),
      ("timestamp", some (writeDate serde event.timestamp)),
      ("job_id", event.jobId.map .string),
      ("prev", event.prev.map JobState.serialize),
      ("fields", writeFields event.fields) ]

def JobEvent.deserialize : Value → Option JobEvent
  | .object fields => do
      let id ← requiredField fields "id" readString
      let event ← requiredField fields "event" readString
      let timestamp ← requiredField fields "timestamp" (readDate serde)
      let jobId ← optionalField fields "job_id" readString
      let prev ← optionalField fields "prev" JobState.deserialize
      let eventFields ← defaultedField fields "fields" readFields []
      return { id, event, timestamp, jobId, prev, fields := eventFields }
  | _ => none

-----------------------------------------------------------------------------------------
-- Snapshots
-----------------------------------------------------------------------------------------

/-- A map that is skipped when it is empty. -/
def writeEntries {α : Type} (write : α → Value) (map : HashMap String α) : Option Value :=
  if map.keys.isEmpty then none else some (writeMap write map)

def JobFlowDependencyIndex.serialize (index : JobFlowDependencyIndex) : Value :=
  document
    [ ("parent_id", some (.string index.parentId)),
      ("processed", writeEntries id index.processed),
      ("ignored", writeEntries .string index.ignored),
      ("failed", writeItems .string index.failed) ]

def JobFlowDependencyIndex.deserialize : Value → Option JobFlowDependencyIndex
  | .object fields => do
      let parentId ← requiredField fields "parent_id" readString
      let processed ← defaultedField fields "processed" (readMap some) ∅
      let ignored ← defaultedField fields "ignored" (readMap readString) ∅
      let failed ← defaultedField fields "failed" (readList readString) []
      return { parentId, processed, ignored, failed }
  | _ => none

/-- A released owner is written as a pair. -/
def writeOwner (owner : String × JobId) : Value := .array [.string owner.1, .string owner.2]

def readOwner : Value → Option (String × JobId)
  | .array [.string deduplicationId, .string jobId] => some (deduplicationId, jobId)
  | _ => none

def JobQueueSnapshot.serialize (snapshot : JobQueueSnapshot) : Value :=
  document
    [ ("queue", some (.string snapshot.queue)),
      ("paused", some (.bool snapshot.paused)),
      ("events", writeItems (JobEvent.serialize serde) snapshot.events),
      ("event_sequence",
        if snapshot.eventSequence = 0 then none else some (writeNat snapshot.eventSequence)),
      ("jobs", some (.array (snapshot.jobs.map (Job.serialize serde)))),
      ("deduplication_next_jobs", writeItems (Job.serialize serde) snapshot.deduplicationNextJobs),
      ("deduplication_next_flows",
        writeItems (JobFlow.serialize serde) snapshot.deduplicationNextFlows),
      ("released_deduplication_owners",
        writeItems writeOwner snapshot.releasedDeduplicationOwners),
      ("flow_dependency_indexes",
        writeItems JobFlowDependencyIndex.serialize snapshot.flowDependencyIndexes) ]

def JobQueueSnapshot.deserialize : Value → Option JobQueueSnapshot
  | .object fields => do
      let queue ← requiredField fields "queue" readString
      let paused ← requiredField fields "paused" readBool
      let events ← defaultedField fields "events" (readList (JobEvent.deserialize serde)) []
      let eventSequence ← defaultedField fields "event_sequence" readNat 0
      let jobs ← requiredField fields "jobs" (readList (Job.deserialize serde))
      let deduplicationNextJobs ←
        defaultedField fields "deduplication_next_jobs" (readList (Job.deserialize serde)) []
      let deduplicationNextFlows ←
        defaultedField fields "deduplication_next_flows" (readList (JobFlow.deserialize serde)) []
      let releasedDeduplicationOwners ←
        defaultedField fields "released_deduplication_owners" (readList readOwner) []
      let flowDependencyIndexes ←
        defaultedField fields "flow_dependency_indexes"
          (readList JobFlowDependencyIndex.deserialize) []
      return {
        queue, paused, events, eventSequence, jobs, deduplicationNextJobs, deduplicationNextFlows,
        releasedDeduplicationOwners, flowDependencyIndexes }
  | _ => none

/-- What the snapshot file contains after it has been written. -/
def persistJobSnapshot (snapshot : JobQueueSnapshot) : Value := snapshot.serialize serde

/-- The snapshot of a file, if there is one. -/
def loadJobSnapshot : Option Value → Result (Option JobQueueSnapshot)
  | none => .ok none
  | some written =>
      match JobQueueSnapshot.deserialize serde written with
      | some snapshot => .ok (some snapshot)
      | none =>
          let error := serde.errorText written
          .error (.other s!"failed to decode job snapshot: {error}")

end

-----------------------------------------------------------------------------------------
-- The local queue
-----------------------------------------------------------------------------------------

/-- A queue in memory with the contents of its snapshot file. -/
structure LocalJobQueue where
  inner : InMemoryJobQueueState := {}
  file : Option Value := none

namespace LocalJobQueue

/-- What happens to a local queue: a call on the inner queue, the writing of the file, or the
opening of a queue from it.
-/
inductive Action where
  | serves (call : Call)
  | persists
  | opens

/-- The calls write the file after they were accepted, but not all of them do, and the writing
may fail; here it happens at any time.
-/
inductive Step (serde : Serde) (cron : Cron) (queue : QueueName)
    : LocalJobQueue → Action → LocalJobQueue → Prop
  | serves {durable : LocalJobQueue} {call : Call} (fresh : FreshIds durable.inner call.op)
    : Step serde cron queue durable (.serves call)
        { durable with inner := step cron call.find queue durable.inner call.op }
  | persists {durable : LocalJobQueue}
    : Step serde cron queue durable .persists
        { durable with file := some (persistJobSnapshot serde (durable.inner.snapshot queue)) }
  | opensNew {durable : LocalJobQueue} (missing : loadJobSnapshot serde durable.file = .ok none)
    : Step serde cron queue durable .opens { durable with inner := {} }
  | opens {durable : LocalJobQueue} {snapshot : JobQueueSnapshot}
    (loaded : loadJobSnapshot serde durable.file = .ok (some snapshot))
    (named : snapshot.queue = queue)
    : Step serde cron queue durable .opens { durable with inner := .fromSnapshot snapshot }

/-- A local queue as a transition system. -/
def system (serde : Serde) (cron : Cron) (queue : QueueName)
    : LabelledSystem LocalJobQueue Action where
  Step := Step serde cron queue

end LocalJobQueue

end Lane
