import Lane.Job.Queries
import Mathlib.Logic.Function.Basic

/-! The keys of one Redis queue and the commands its scripts call. Each family of keys is a
table from the id that ends the key; a key that does not exist has no entry or an empty one.
-/

namespace Lane

-----------------------------------------------------------------------------------------
-- Sorted sets
-----------------------------------------------------------------------------------------

/-- A sorted set: members with their scores. -/
abbrev SortedSet := HashMap String Int

namespace SortedSet

/-- The order of a sorted set: by score, then by member. -/
def precedes (left right : String × Int) : Bool :=
  left.2 < right.2 || (left.2 == right.2 && left.1 ≤ right.1)

/-- The members with their scores, lowest first. -/
def ranked (set : SortedSet) : List (String × Int) :=
  (set.entries.map (fun entry => (entry.1, entry.2))).mergeSort precedes

/-- `ZADD`. -/
def add (set : SortedSet) (score : Int) (member : String) : SortedSet := set.insert member score

/-- `ZREM` of several members. -/
def removeAll (set : SortedSet) (members : List String) : SortedSet :=
  members.foldl (fun set member => set.erase member) set

/-- `ZCARD`. -/
def card (set : SortedSet) : Nat := set.entries.length

/-- `ZREVRANGEBYSCORE set max -inf LIMIT 0 limit`. -/
def revRangeByScore (set : SortedSet) (max : Int) (limit : Nat) : List String :=
  ((set.ranked.filter (fun entry => entry.2 ≤ max)).reverse.map Prod.fst).take limit

/-- `ZREMRANGEBYSCORE set -inf max`. -/
def removeRangeByScore (set : SortedSet) (max : Int) : SortedSet :=
  set.removeAll ((set.ranked.filter (fun entry => entry.2 ≤ max)).map Prod.fst)

/-- `ZREVRANGE set start -1`. -/
def revRange (set : SortedSet) (start : Nat) : List String :=
  (set.ranked.reverse.map Prod.fst).drop start

/-- `ZREMRANGEBYRANK set 0 -(kept + 1)`: all but the `kept` highest members go. -/
def removeRangeByRank (set : SortedSet) (kept : Nat) : SortedSet :=
  set.removeAll ((set.ranked.map Prod.fst).take (set.card - kept))

end SortedSet

-----------------------------------------------------------------------------------------
-- Values
-----------------------------------------------------------------------------------------

/-- The string under a deduplication key: the owner's id, and the remaining milliseconds
that `PTTL` gives when the key expires.
-/
structure DeduplicationOwner where
  jobId : JobId
  pttl : Option Nat
deriving DecidableEq

/-- The payload under a next key: a job, or a flow (`kind` is `"flow"`). -/
inductive DeduplicatedNext where
  | job (job : Job)
  | flow (parent : Option Job) (children : List Job)

/-- All jobs of the payload. -/
def DeduplicatedNext.jobs : DeduplicatedNext → List Job
  | .job next => [next]
  | .flow parent children => parent.toList ++ children

/-- The hash of one repeat scheduler. The fields `limit`, `endDate`, `every` and `pattern` repeat
parts of `opts`.
-/
structure RepeatMeta where
  jid : JobId
  name : String
  next : Int
  state : JobState
  count : Nat
  opts : Option RepeatOptions
  key : String

/-- The metrics of one terminal state: the totals hash and the list of minutes. -/
structure Metrics where
  count : Nat := 0
  prev : Option (Int × Nat) := none
  data : List Int := []

/-- The terminal states, each with its sorted set and its metrics. -/
inductive Finish where
  | completed
  | failed
deriving DecidableEq

/-- The keys of one queue that the finalization scripts read. -/
structure Keyspace where
  jobs : JobId → Option Job := fun _ => none
  waiting : SortedSet := ∅
  active : SortedSet := ∅
  waitingChildren : SortedSet := ∅
  delayed : SortedSet := ∅
  finished : Finish → SortedSet := fun _ => ∅
  stalled : Finset JobId := ∅
  locks : JobId → Option JobLockToken := fun _ => none
  sequence : Nat := 0
  dependencies : JobId → Finset JobId := fun _ => ∅
  processed : JobId → HashMap JobId Value := fun _ => ∅
  ignored : JobId → HashMap JobId String := fun _ => ∅
  unsuccessful : JobId → SortedSet := fun _ => ∅
  deduplication : String → Option DeduplicationOwner := fun _ => none
  deduplicationNext : String → Option DeduplicatedNext := fun _ => none
  repeatOwner : String → Option JobId := fun _ => none
  repeatScheduler : SortedSet := ∅
  repeatMeta : String → Option RepeatMeta := fun _ => none
  metrics : Finish → Metrics := fun _ => {}

namespace Keyspace

/-- `HSET` on the jobs hash. -/
def setJob (keys : Keyspace) (jobId : JobId) (job : Job) : Keyspace :=
  { keys with jobs := Function.update keys.jobs jobId (some job) }

/-- `HDEL` on the jobs hash. -/
def deleteJob (keys : Keyspace) (jobId : JobId) : Keyspace :=
  { keys with jobs := Function.update keys.jobs jobId none }

/-- `HEXISTS` on the jobs hash. -/
def hasJob (keys : Keyspace) (jobId : JobId) : Bool := (keys.jobs jobId).isSome

/-- `DEL` on a deduplication key. -/
def deleteOwner (keys : Keyspace) (deduplicationId : String) : Keyspace :=
  { keys with deduplication := Function.update keys.deduplication deduplicationId none }

/-- `SET` on a deduplication key, with `PX` when there is a TTL. -/
def setOwner (keys : Keyspace) (deduplicationId : String) (owner : DeduplicationOwner) : Keyspace :=
  { keys with deduplication := Function.update keys.deduplication deduplicationId (some owner) }

/-- `DEL` on a next key. -/
def deleteNext (keys : Keyspace) (deduplicationId : String) : Keyspace :=
  { keys with deduplicationNext := Function.update keys.deduplicationNext deduplicationId none }

/-- `EXISTS` on a dependency set: empty sets do not exist. -/
def hasDependencies (keys : Keyspace) (jobId : JobId) : Bool := decide (keys.dependencies jobId ≠ ∅)

/-- `DEL` on a dependency set. -/
def deleteDependencies (keys : Keyspace) (jobId : JobId) : Keyspace :=
  { keys with dependencies := Function.update keys.dependencies jobId ∅ }

/-- `SADD` on a dependency set. -/
def addDependency (keys : Keyspace) (jobId childId : JobId) : Keyspace :=
  { keys with
    dependencies := Function.update keys.dependencies jobId (insert childId (keys.dependencies jobId)) }

/-- `SREM` on a dependency set. -/
def removeDependency (keys : Keyspace) (jobId childId : JobId) : Keyspace :=
  { keys with
    dependencies := Function.update keys.dependencies jobId ((keys.dependencies jobId).erase childId) }

/-- `HSET` on the hash of processed children. -/
def setProcessed (keys : Keyspace) (jobId childId : JobId) (value : Value) : Keyspace :=
  { keys with
    processed := Function.update keys.processed jobId ((keys.processed jobId).insert childId value) }

/-- `HSET` on the hash of ignored children. -/
def setIgnored (keys : Keyspace) (jobId childId : JobId) (reason : String) : Keyspace :=
  { keys with
    ignored := Function.update keys.ignored jobId ((keys.ignored jobId).insert childId reason) }

/-- `ZADD` on the set of unsuccessful children. -/
def addUnsuccessful (keys : Keyspace) (jobId childId : JobId) (score : Int) : Keyspace :=
  { keys with
    unsuccessful := Function.update keys.unsuccessful jobId ((keys.unsuccessful jobId).add score childId) }

end Keyspace

end Lane
