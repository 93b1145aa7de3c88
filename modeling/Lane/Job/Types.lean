import Lane.Job.Time
import Mathlib.Data.Finset.Basic
import Mathlib.Data.List.AList
import Mathlib.Data.String.Basic

/-! Job records, their options and the validation every submission path runs. -/

namespace Lane

abbrev JobId := String
abbrev QueueName := String
abbrev JobWorkerId := String
abbrev JobLockToken := String
abbrev JobPriority := Nat

-- The order by which sets of ids are listed.
instance : IsTrans JobId (· ≤ ·) := inferInstance
instance : Std.Antisymm (fun left right : JobId => left ≤ right) := inferInstance
instance : Std.Total (fun left right : JobId => left ≤ right) := inferInstance

/-- A hash map from the standard library: distinct keys in an arbitrary stored order. -/
abbrev HashMap (κ α : Type) := AList (fun _ : κ => α)

/-- The errors of both queues. -/
inductive LaneError where
  | laneNotFound (laneId : String)
  | queueError (message : String)
  | configError (message : String)
  | commandError (message : String)
  | jobNotFound (jobId : String)
  | jobStateConflict (message : String)
  | jobLeaseConflict (message : String)
  | unrecoverableJob (message : String)
  | timeout (duration : Duration)
  | shutdownInProgress
  | other (message : String)
deriving DecidableEq, Repr

abbrev Result (α : Type) := Except LaneError α

/-- JSON values carried as payloads, results, progress and event fields. -/
inductive Value where
  | null
  | bool (value : Bool)
  | number (value : Int)
  | float (value : Float)
  | string (value : String)
  | array (items : List Value)
  | object (fields : List (String × Value))

-----------------------------------------------------------------------------------------
-- Saturating machine counters
-----------------------------------------------------------------------------------------

def u32Max : Nat := 4294967295

def u64Max : Nat := 18446744073709551615

/-- `saturating_add(1)` on a 32-bit counter. -/
def saturatingSucc32 (value : Nat) : Nat := min (value + 1) u32Max

/-- `saturating_add(1)` on a 64-bit counter. -/
def saturatingSucc64 (value : Nat) : Nat := min (value + 1) u64Max

-----------------------------------------------------------------------------------------
-- Strings
-----------------------------------------------------------------------------------------

/-- Unicode `White_Space`, the class that `str::trim` removes at both ends. -/
def isWhiteSpace (c : Char) : Bool :=
  let n := c.toNat
  (9 ≤ n && n ≤ 13) || n == 32 || n == 133 || n == 160 || n == 5760
    || (8192 ≤ n && n ≤ 8202) || n == 8232 || n == 8233 || n == 8239 || n == 8287
    || n == 12288

/-- `str::trim`. -/
def trim (text : String) : String :=
  String.ofList
    ((text.toList.dropWhile isWhiteSpace).reverse.dropWhile isWhiteSpace).reverse

def isAsciiDigit (c : Char) : Bool := '0' ≤ c && c ≤ '9'

-----------------------------------------------------------------------------------------
-- Retry policy
-----------------------------------------------------------------------------------------

/-- Retry policy used after processing failure. -/
structure RetryPolicy where
  maxRetries : Nat
  initialDelay : Duration
  maxDelay : Duration
  multiplier : Float

def RetryPolicy.none : RetryPolicy :=
  { maxRetries := 0, initialDelay := 0, maxDelay := 0, multiplier := 1 }

/-- The cast of a 32-bit unsigned number to a signed one. -/
def asI32 (value : Nat) : Int :=
  if value < 2147483648 then value else value - 4294967296

/-- `f64::powi`. -/
def powi (base : Float) (exponent : Int) : Float :=
  let power := (List.replicate exponent.natAbs base).foldl (· * ·) 1
  if exponent < 0 then 1 / power else power

/-- Exponential backoff in whole milliseconds, capped by `maxDelay`. -/
def RetryPolicy.delayForAttempt (policy : RetryPolicy) (attempt : Nat) : Duration :=
  if attempt = 0 ∨ policy.maxRetries = 0 then
    0
  else
    let delayMs :=
      Float.ofNat (policy.initialDelay / nanosPerMilli)
        * powi policy.multiplier (asI32 (attempt - 1))
    let delay := delayMs.toUInt64.toNat * nanosPerMilli
    min delay policy.maxDelay

-----------------------------------------------------------------------------------------
-- Lifecycle states
-----------------------------------------------------------------------------------------

/-- Lifecycle state of a durable job. -/
inductive JobState where
  | waiting
  | delayed
  | active
  | waitingChildren
  | completed
  | failed
deriving DecidableEq, Repr

/-- States in which a job is never claimed again. -/
def JobState.isTerminal : JobState → Bool
  | .completed | .failed => true
  | _ => false

/-- The `Debug` rendering used in conflict messages. -/
def JobState.debug : JobState → String
  | .waiting => "Waiting"
  | .delayed => "Delayed"
  | .active => "Active"
  | .waitingChildren => "WaitingChildren"
  | .completed => "Completed"
  | .failed => "Failed"

/-- The event emitted when a job enters a state. -/
def jobEventForState : JobState → String
  | .waiting => "waiting"
  | .delayed => "delayed"
  | .active => "active"
  | .waitingChildren => "waiting-children"
  | .completed => "completed"
  | .failed => "failed"

-----------------------------------------------------------------------------------------
-- Repeat schedules
-----------------------------------------------------------------------------------------

/-- The cron crate: an expression parses to a schedule or to an error text, and a schedule
gives its next occurrence strictly after a timestamp.
-/
structure Cron where
  parse : String → Except String (DateTime → Option DateTime)

inductive RepeatSchedule where
  | every (interval : Duration)
  | cron (expression : String)

/-- Repeat settings; `limit` counts total executions, the first one included. -/
structure RepeatOptions where
  schedule : RepeatSchedule
  limit : Option Nat := none
  endAt : Option DateTime := none
  key : Option String := none

def parseCronExpression (cron : Cron) (expression : String)
    : Result (DateTime → Option DateTime) :=
  let expression := trim expression
  if expression.isEmpty then
    .error (.configError "repeat cron expression must not be empty")
  else
    match cron.parse expression with
    | .ok schedule => .ok schedule
    | .error error =>
        .error (.configError s!"invalid repeat cron expression `{expression}`: {error}")

def RepeatOptions.validate (cron : Cron) (options : RepeatOptions) : Result Unit := do
  match options.schedule with
  | .every interval =>
      if interval = 0 then
        throw (.configError "repeat interval must be greater than zero")
  | .cron expression =>
      let _ ← parseCronExpression cron expression
  if options.limit = some 0 then
    throw (.configError "repeat limit must be greater than zero")

def RepeatOptions.nextScheduledAt (cron : Cron) (options : RepeatOptions)
    (after : DateTime)
    : Result (Option DateTime) :=
  match options.schedule with
  | .every interval => .ok (some (addDuration after interval))
  | .cron expression => (parseCronExpression cron expression).map (fun next => next after)

-----------------------------------------------------------------------------------------
-- Deduplication, retention and job options
-----------------------------------------------------------------------------------------

/-- Deduplication settings: jobs with one id are coalesced while an owner is retained. -/
structure DeduplicationOptions where
  id : String
  ttl : Option Duration := none
  replace : Bool := false
  keepLastIfActive : Bool := false
  extend : Bool := false

def DeduplicationOptions.validate (options : DeduplicationOptions) : Result Unit := do
  if (trim options.id).isEmpty then
    throw (.configError "deduplication id must not be empty")
  if options.ttl = some 0 then
    throw (.configError "deduplication ttl must be greater than zero")

/-- Retention of finished jobs by age and count. -/
structure JobRetention where
  age : Option Duration := none
  count : Option Nat := none
  limit : Option Nat := none

def JobRetention.removesCurrent (retention : JobRetention) : Bool :=
  retention.count == some 0

def JobRetention.validate (retention : JobRetention) (field : String) : Result Unit := do
  if retention.age = none ∧ retention.count = none then
    throw (.configError s!"{field} must specify an age or count")
  if retention.age = some 0 then
    throw (.configError s!"{field} age must be greater than zero")
  if retention.limit = some 0 then
    throw (.configError s!"{field} limit must be greater than zero")

def defaultJobPriority : JobPriority := 1000

/-- Maximum accepted priority, `2^21`. -/
def maxJobPriority : JobPriority := 2097152

def validateJobPriority (priority : JobPriority) : Result Unit := do
  if priority > maxJobPriority then
    throw (.configError s!"priority must be between 0 and {maxJobPriority}")

def defaultJobEventRetention : Nat := 10000

structure JobOptions where
  jobId : Option JobId := none
  priority : JobPriority := defaultJobPriority
  lifo : Bool := false
  delay : Option Duration := none
  retryPolicy : RetryPolicy := .none
  timeout : Option Duration := none
  removeOnComplete : Bool := false
  completionRetention : Option JobRetention := none
  removeOnFail : Bool := false
  failureRetention : Option JobRetention := none
  maxStalledCount : Nat := 1
  repeatOptions : Option RepeatOptions := none
  deduplication : Option DeduplicationOptions := none
  ignoreDependencyOnFailure : Bool := false
  removeDependencyOnFailure : Bool := false
  continueParentOnFailure : Bool := false
  failParentOnFailure : Bool := false

/-- An optional `-`, a digit from 1 to 9, then digits only: the ids BullMQ generates. -/
def isBullmqIntegerJobId (jobId : String) : Bool :=
  let startsAtOne : List Char → Bool
    | [] => false
    | digit :: rest => '1' ≤ digit && digit ≤ '9' && rest.all isAsciiDigit
  match jobId.toList with
  | '-' :: rest => startsAtOne rest
  | chars => startsAtOne chars

def validateJobId (jobId : String) : Result Unit := do
  if (trim jobId).isEmpty then
    throw (.configError "job id must not be empty")
  if jobId = "0" ∨ ['0', ':'].isPrefixOf jobId.toList then
    throw (.configError "job id cannot be `0` or start with `0:`")
  if isBullmqIntegerJobId jobId then
    throw (.configError "custom job id cannot be an integer")

/-- Runs a check on an optional setting. -/
def validateSome {α : Type} (check : α → Result Unit) : Option α → Result Unit
  | some value => check value
  | none => .ok ()

def JobOptions.validate (cron : Cron) (options : JobOptions) : Result Unit := do
  validateSome validateJobId options.jobId
  validateJobPriority options.priority
  validateSome (RepeatOptions.validate cron) options.repeatOptions
  validateSome DeduplicationOptions.validate options.deduplication
  validateSome (JobRetention.validate · "completion retention") options.completionRetention
  validateSome (JobRetention.validate · "failure retention") options.failureRetention
  let flowFailurePolicies :=
    [options.ignoreDependencyOnFailure, options.removeDependencyOnFailure,
      options.continueParentOnFailure, options.failParentOnFailure].count true
  if flowFailurePolicies > 1 then
    throw (.configError "flow child failure policies are mutually exclusive")

def JobOptions.removesCompletedImmediately (options : JobOptions) : Bool :=
  options.removeOnComplete || options.completionRetention.any JobRetention.removesCurrent

def JobOptions.completedRetention (options : JobOptions) : Option JobRetention :=
  if options.removeOnComplete then
    none
  else
    options.completionRetention.filter (fun retention => !retention.removesCurrent)

def JobOptions.removesFailedImmediately (options : JobOptions) : Bool :=
  options.removeOnFail || options.failureRetention.any JobRetention.removesCurrent

def JobOptions.failedRetention (options : JobOptions) : Option JobRetention :=
  if options.removeOnFail then
    none
  else
    options.failureRetention.filter (fun retention => !retention.removesCurrent)

-----------------------------------------------------------------------------------------
-- Job records
-----------------------------------------------------------------------------------------

/-- A retained log line. -/
structure JobLogEntry where
  timestamp : DateTime
  line : String

/-- Durable job record. -/
structure Job where
  id : JobId
  queue : QueueName
  name : String
  payload : Value
  options : JobOptions
  priority : JobPriority
  state : JobState
  attemptsMade : Nat
  stalledCount : Nat
  createdAt : DateTime
  scheduledAt : DateTime
  enqueuedSeq : Nat
  processedAt : Option DateTime
  finishedAt : Option DateTime
  workerId : Option JobWorkerId
  lockToken : Option JobLockToken
  leaseExpiresAt : Option DateTime
  deferredFailure : Option String
  failedReason : Option String
  stacktrace : List String
  returnValue : Option Value
  progress : Option Value
  logs : List JobLogEntry
  parentId : Option JobId
  childIds : List JobId
  repeatKey : Option String
  repeatCount : Nat
  deduplicationExpiresAt : Option DateTime

/-- A TTL ends at a fixed time unless the job keeps the last duplicate instead. -/
def deduplicationExpiration (options : JobOptions) (now : DateTime) : Option DateTime :=
  (options.deduplication.filter (fun deduplication => !deduplication.keepLastIfActive)).bind
    (fun deduplication => deduplication.ttl.map (addDuration now))

/-- A fresh record. `uuid` is the id the uuid crate generates when no custom id is given. -/
def Job.new (queue : QueueName) (name : String) (payload : Value) (options : JobOptions)
    (now : DateTime) (uuid : JobId)
    : Job :=
  let scheduledAt := (options.delay.map (addDuration now)).getD now
  { id := options.jobId.getD uuid
    queue, name, payload, options
    priority := options.priority
    state := if scheduledAt > now then .delayed else .waiting
    attemptsMade := 0
    stalledCount := 0
    createdAt := now
    scheduledAt
    enqueuedSeq := 0
    processedAt := none
    finishedAt := none
    workerId := none
    lockToken := none
    leaseExpiresAt := none
    deferredFailure := none
    failedReason := none
    stacktrace := []
    returnValue := none
    progress := none
    logs := []
    parentId := none
    childIds := []
    repeatKey := options.repeatOptions.map (fun settings => settings.key.getD s!"{queue}:{name}")
    repeatCount := 0
    deduplicationExpiresAt := deduplicationExpiration options now }

/-- Job input used when creating jobs in bulk or as a flow. -/
structure JobSpec where
  name : String
  payload : Value := .null
  options : JobOptions := {}

/-- Jobs created by a parent-child flow submission. -/
structure JobFlow where
  parent : Job
  children : List Job

/-- Retained queue event; the id has the shape of a Redis stream id. -/
structure JobEvent where
  id : String
  event : String
  timestamp : DateTime
  jobId : Option JobId
  prev : Option JobState
  fields : List (String × Value)

end Lane
