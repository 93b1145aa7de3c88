import Lane.Redis.Serving

/-! Whatever requests clients make of a Redis queue, in whatever order, and however much time passes
in between: every job is listed by the set of its state alone, and the leases that workers get follow
each other like those of a lease table.
-/

namespace Lane

open LeaseTable

variable {start : RedisServer} {history : RedisHistory}

-----------------------------------------------------------------------------------------
-- A queue with one job
-----------------------------------------------------------------------------------------

/-- The job that a client adds. -/
def soleJob : Job := .new "queue" "work" .null {} 0 "job"

/-- A worker's claim for one second. -/
def soleClaim : ClaimArgs := claimArgs "worker" 1000000000 0 none "token"

def soleAdded : RedisHistory := ({ server := {} } : RedisHistory).after (.addJobs [soleJob])

/-- The job is added and claimed. -/
def soleClaimed : RedisHistory := soleAdded.after (.claimNext soleClaim)

/-- The lease runs out and the job is recovered. -/
def soleRecovered : RedisHistory :=
  ((soleClaimed.after (.recoverStalled [] 0)).after (.elapse 1001)).after
    (.recoverStalled ["job"] 1001000000)

theorem reaches_soleAdded : redisSystem.Reaches { server := {} } soleAdded := by
  refine RedisHistory.reaches_after (.refl _) _ ?_
  intro job member
  rw [List.mem_singleton] at member
  exact ⟨"queue", "work", .null, {}, 0, "job", member⟩

theorem reaches_soleClaimed : redisSystem.Reaches { server := {} } soleClaimed :=
  RedisHistory.reaches_after reaches_soleAdded _ trivial

theorem reaches_soleRecovered : redisSystem.Reaches { server := {} } soleRecovered := by
  have listed := RedisHistory.reaches_after reaches_soleClaimed (.recoverStalled [] 0)
    ⟨List.nodup_nil, fun _ member => by cases member⟩
  have elapsed := RedisHistory.reaches_after listed (.elapse 1001) trivial
  refine RedisHistory.reaches_after elapsed _ ⟨List.nodup_singleton _, ?_⟩
  intro id member
  rw [List.mem_singleton.mp member]
  decide +kernel

theorem soleRecovered_events
    : soleRecovered.events = [.grant "job" "token" 0 1000] ++ .revoke "job" 1001 :: [] := by
  decide +kernel

-----------------------------------------------------------------------------------------
-- Places
-----------------------------------------------------------------------------------------

/-- The sorted set of the state lists the job. -/
def Keyspace.listed (keys : Keyspace) : JobState → JobId → Bool
  | .waiting, id => (keys.waiting.lookup id).isSome
  | .active, id => (keys.active.lookup id).isSome
  | .delayed, id => (keys.delayed.lookup id).isSome
  | .waitingChildren, id => (keys.waitingChildren.lookup id).isSome
  | .completed, id => ((keys.finished .completed).lookup id).isSome
  | .failed, id => ((keys.finished .failed).lookup id).isSome

/-- In order, a listing is about a record in that state. -/
theorem Keyspace.Filed.holds_of_listed {keys : Keyspace} (filed : keys.InOrder) {state : JobState}
    {id : JobId} (listed : keys.listed state id = true)
    : (keys.place id).holds state = true := by
  have fits := filed.fits id (Set.notMem_empty id)
  cases state with
  | waiting =>
      obtain ⟨score, found⟩ := Option.isSome_iff_exists.mp listed
      obtain ⟨job, known, waits, _⟩ := filed.waits_of_listed found
      exact waits ▸ place_holds known
  | active => exact fits.active.symm.trans listed
  | delayed => exact fits.delayed.symm.trans listed
  | waitingChildren => exact fits.waitingChildren listed
  | completed => exact (fits.finished .completed).symm.trans listed
  | failed => exact (fits.finished .failed).symm.trans listed

/-- In order, a record is listed by the set of its state, if it does not wait for children. -/
theorem Keyspace.Filed.listed_of_found {keys : Keyspace} (filed : keys.InOrder) {job : Job}
    {id : JobId} (found : keys.jobs id = some job) (settled : job.state ≠ .waitingChildren)
    : keys.listed job.state id = true := by
  have fits := filed.fits id (Set.notMem_empty id)
  have held := place_holds found
  cases state : job.state with
  | waiting =>
      rw [Keyspace.listed, filed.listed_of_waits found state]
      rfl
  | active => exact fits.active.trans (state ▸ held)
  | delayed => exact fits.delayed.trans (state ▸ held)
  | waitingChildren => exact absurd state settled
  | completed =>
      rw [state] at held
      exact (fits.finished .completed).trans held
  | failed =>
      rw [state] at held
      exact (fits.finished .failed).trans held

end Lane
