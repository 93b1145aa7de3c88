import Lane.Redis.Finalization

/-! The scripts that add jobs. A job with a taken id, a deduplication id that is active or a series
that is active is not inserted; it may replace a delayed owner or be kept as the next job.
-/

namespace Lane

/-- What became of an added job, with the job that the caller gets back. -/
inductive AddJobReply where
  | existing (job : Job)
  | deduplicated (job : Job)
  | repeated (job : Job)
  | inserted (job : Job)

namespace Keyspace

open Redis

-----------------------------------------------------------------------------------------
-- Owners
-----------------------------------------------------------------------------------------

/-- `active_deduplicated_raw`: the job that holds the id; a key without one is deleted. -/
def activeDeduplicated (keys : Keyspace) (id : String) : Keyspace × Option Job :=
  match keys.deduplication id with
  | none => (keys, none)
  | some owner =>
      match keys.jobs owner.jobId with
      | none => (keys.deleteOwner id, none)
      | some existing =>
          if existing.state.isTerminal ∧ ¬ owner.pttl.any (0 < ·) then
            (keys.deleteOwner id, none)
          else
            (keys, some existing)

/-- The job is retained, not finished, and belongs to the series. -/
def activeInSeries (keys : Keyspace) (key : String) (jobId : JobId) : Option Job :=
  (keys.jobs jobId).filter (fun job => !job.state.isTerminal && job.repeatKey == some key)

/-- `active_repeat_raw`: the job of an active series, found by its owner key or else by its
scheduler entry; what names no such job is deleted.
-/
def activeRepeat (keys : Keyspace) (key : String) : Keyspace × Option Job :=
  match (keys.repeatOwner key).bind (keys.activeInSeries key) with
  | some existing => (keys, some existing)
  | none =>
      let keys := { keys with repeatOwner := Function.update keys.repeatOwner key none }
      match keys.repeatMeta key with
      | none => (keys, none)
      | some entry =>
          match keys.activeInSeries key entry.jid with
          | none =>
              ({ keys with
                  repeatScheduler := keys.repeatScheduler.erase key
                  repeatMeta := Function.update keys.repeatMeta key none }, none)
          | some existing =>
              ({ keys with repeatOwner := Function.update keys.repeatOwner key (some entry.jid) },
                some existing)

/-- The job of the active series that a new job belongs to. -/
def activeSeries (keys : Keyspace) (job : Job) : Keyspace × Option Job :=
  match repeatKey job with
  | none => (keys, none)
  | some key => keys.activeRepeat key

-----------------------------------------------------------------------------------------
-- Duplicates
-----------------------------------------------------------------------------------------

/-- `can_replace_deduplicated_owner`. -/
def canReplaceOwner (candidate existing : Job) : Bool :=
  candidate.options.deduplication.any DeduplicationOptions.replace
    && existing.state == .delayed
    && candidate.repeatKey.isNone
    && existing.parentId.isNone
    && existing.repeatKey.isNone
    && existing.childIds.isEmpty

/-- `can_store_deduplicated_next`. -/
def canStoreNext (keys : Keyspace) (candidate existing : Job) : Bool :=
  candidate.options.deduplication.any DeduplicationOptions.keepLastIfActive
    && existing.state == .active
    && (keys.active.lookup existing.id).isSome
    && candidate.parentId.isNone
    && candidate.repeatKey == existing.repeatKey
    && candidate.childIds.isEmpty

/-- `store_deduplicated_next`: the owner's key no longer expires. -/
def storeNext (keys : Keyspace) (id : String) (candidate : Job) : Keyspace :=
  let keys :=
    { keys with
      deduplicationNext := Function.update keys.deduplicationNext id (some (.job candidate)) }
  match keys.deduplication id with
  | none => keys
  | some owner => keys.setOwner id { owner with pttl := none }

/-- `extend_deduplicated_owner`. -/
def extendOwner (keys : Keyspace) (id : String) (candidate existing : Job) : Keyspace :=
  match candidate.options.deduplication with
  | none => keys
  | some deduplication =>
      if deduplication.replace ∨ ¬ deduplication.extend ∨ deduplication.keepLastIfActive then
        keys
      else
        match durationMillis deduplication.ttl with
        | none => keys
        | some ttl => keys.setOwner id { jobId := existing.id, pttl := some ttl }

/-- `set_deduplication_key` after an owner may have been replaced: its remaining time is kept. -/
def takeDeduplicationKey (keys : Keyspace) (job : Job) (jobId : JobId) (keepExistingTtl : Bool)
    : Keyspace :=
  match deduplicationId job with
  | none => keys
  | some id =>
      let ttl := deduplicationTtlMillis job
      let renews := job.options.deduplication.any DeduplicationOptions.extend
      if keepExistingTtl ∧ ttl.isSome ∧ ¬ renews then
        keys.setOwner id { jobId, pttl := (keys.deduplication id).bind DeduplicationOwner.pttl }
      else
        keys.setDeduplicationKey job jobId

/-- The duplicate of an active job: it replaces the owner, or the owner is returned instead. -/
def coalesce (keys : Keyspace) (id : String) (job existing : Job) : Keyspace × Except Job Unit :=
  if canReplaceOwner job existing then
    if (keys.delayed.lookup existing.id).isSome then
      let keys := { keys with delayed := keys.delayed.erase existing.id }
      (keys.deleteJob existing.id, .ok ())
    else
      (keys, .error existing)
  else if keys.canStoreNext job existing then
    (keys.storeNext id job, .error existing)
  else
    (keys.extendOwner id job existing, .error existing)

/-- The deduplication check: the job that is returned instead, or whether an owner was replaced. -/
def deduplicate (keys : Keyspace) (job : Job) : Keyspace × Except Job Bool :=
  match deduplicationId job with
  | none => (keys, .ok false)
  | some id =>
      match keys.activeDeduplicated id with
      | (keys, none) => (keys, .ok false)
      | (keys, some existing) =>
          let (keys, coalesced) := keys.coalesce id job existing
          (keys, coalesced.map (fun _ => true))

-----------------------------------------------------------------------------------------
-- Insertion
-----------------------------------------------------------------------------------------

/-- The new record enters the set of its state. -/
def insertJob (keys : Keyspace) (job : Job) : Keyspace × Job :=
  let scheduledMillis := timestampMillis job.scheduledAt
  match job.state with
  | .waiting =>
      let keys := keys.enqueueWaitingJob job job.id job.priority
      (keys, { job with enqueuedSeq := keys.sequence })
  | .delayed =>
      let keys := keys.setJob job.id job
      ({ keys with delayed := keys.delayed.add scheduledMillis job.id }, job)
  | .waitingChildren =>
      let keys := keys.setJob job.id job
      ({ keys with waitingChildren := keys.waitingChildren.add scheduledMillis job.id }, job)
  | _ => (keys.setJob job.id job, job)

/-- The keys of a job that was inserted. -/
def takeKeys (keys : Keyspace) (job inserted : Job) (replaced : Bool) : Keyspace :=
  let keys := keys.takeDeduplicationKey job job.id replaced
  keys.setRepeatKey inserted job.id (timestampMillis job.scheduledAt)

/-- `ADD_JOB_SCRIPT`, and one turn of `ADD_JOBS_SCRIPT`. -/
def addJob (keys : Keyspace) (job : Job) : Keyspace × AddJobReply :=
  match keys.jobs job.id with
  | some existing => (keys, .existing existing)
  | none =>
      match keys.deduplicate job with
      | (keys, .error existing) => (keys, .deduplicated existing)
      | (keys, .ok replaced) =>
          match keys.activeSeries job with
          | (keys, some existing) => (keys, .repeated existing)
          | (keys, none) =>
              let (keys, inserted) := keys.insertJob job
              (keys.takeKeys job inserted replaced, .inserted inserted)

/-- `ADD_JOBS_SCRIPT`. -/
def addJobs (keys : Keyspace) : List Job → Keyspace × List AddJobReply
  | [] => (keys, [])
  | job :: rest =>
      let (keys, reply) := keys.addJob job
      let (keys, replies) := keys.addJobs rest
      (keys, reply :: replies)

end Keyspace

end Lane
