import Lane.Job.SnapshotRoundTrip
import Lane.Library.Numeral
import Lane.Stock.Operations

/-! The snapshot file of a local queue opens again, as what was written without the lock tokens,
exactly when every stored record has a finite retry multiplier and neither a result nor a progress
that is JSON `null`.
-/

namespace Lane

-----------------------------------------------------------------------------------------
-- What a file should open as
-----------------------------------------------------------------------------------------

/-- The record without its lock token. -/
def Job.unlocked (job : Job) : Job := { job with lockToken := none }

def JobFlow.unlocked (flow : JobFlow) : JobFlow :=
  { parent := flow.parent.unlocked, children := flow.children.map Job.unlocked }

/-- The snapshot without the lock tokens of its jobs. -/
def JobQueueSnapshot.unlocked (snapshot : JobQueueSnapshot) : JobQueueSnapshot :=
  { snapshot with
    jobs := snapshot.jobs.map Job.unlocked
    deduplicationNextJobs := snapshot.deduplicationNextJobs.map Job.unlocked
    deduplicationNextFlows := snapshot.deduplicationNextFlows.map JobFlow.unlocked }

/-- The snapshots are equal, the maps of their indexes by their lookups. -/
structure JobQueueSnapshot.Same (left right : JobQueueSnapshot) : Prop where
  queue : left.queue = right.queue
  paused : left.paused = right.paused
  events : left.events = right.events
  eventSequence : left.eventSequence = right.eventSequence
  jobs : left.jobs = right.jobs
  nextJobs : left.deduplicationNextJobs = right.deduplicationNextJobs
  nextFlows : left.deduplicationNextFlows = right.deduplicationNextFlows
  owners : left.releasedDeduplicationOwners = right.releasedDeduplicationOwners
  indexes
    : List.Forall₂ JobFlowDependencyIndex.Same left.flowDependencyIndexes
        right.flowDependencyIndexes

/-- The file that the queue writes opens as its snapshot without the lock tokens. -/
def Opens (serde : Serde) (queue : QueueName) (s : InMemoryJobQueueState) : Prop :=
  ∃ snapshot,
    loadJobSnapshot serde (some (persistJobSnapshot serde (s.snapshot queue)))
        = .ok (some snapshot)
      ∧ snapshot.Same (s.snapshot queue).unlocked

/-- The contents of a record survive the file. -/
structure Contents.Durable (c : Contents) : Prop where
  finite : c.options.retryPolicy.multiplier.isFinite = true
  returnValue : c.returnValue ≠ some .null
  progress : c.progress ≠ some .null

/-- An operation takes in only what survives the file. -/
structure Op.Durable (op : Op) : Prop where
  finite : ∀ options ∈ op.submittedOptions, options.retryPolicy.multiplier.isFinite = true
  result : op.result ≠ some .null
  progress : op.progress ≠ some .null

/-- The calls on a local queue that take in only what survives the file. -/
def LocalJobQueue.Action.Durable : LocalJobQueue.Action → Prop
  | .serves call => call.op.Durable
  | .persists | .opens => True

-----------------------------------------------------------------------------------------
-- Records
-----------------------------------------------------------------------------------------

theorem filter_isNull_eq {value : Option Value}
    : value.filter (fun value => !value.isNull) = value ↔ value ≠ some .null := by
  cases value with
  | none => simp
  | some value => cases value <;> simp [Option.filter, Value.isNull]

/-- A record survives the file, but for its lock token, without a `null`. -/
theorem Job.reopened_eq_unlocked {job : Job}
    : job.reopened = job.unlocked ↔ job.returnValue ≠ some .null ∧ job.progress ≠ some .null := by
  rw [← filter_isNull_eq, ← filter_isNull_eq]
  constructor
  · intro same
    exact ⟨congrArg Job.returnValue same, congrArg Job.progress same⟩
  · rintro ⟨returnValue, progress⟩
    unfold Job.reopened Job.unlocked
    rw [returnValue, progress]

theorem JobFlow.reopened_eq_unlocked {flow : JobFlow}
    : flow.reopened = flow.unlocked ↔ ∀ job ∈ flow.jobs, job.reopened = job.unlocked := by
  rw [JobFlow.jobs, List.forall_mem_cons, ← List.map_inj_left, JobFlow.reopened, JobFlow.unlocked,
    JobFlow.mk.injEq]

/-- The snapshot that is read back is the one that was written when all of its records are. -/
theorem JobQueueSnapshot.same_reopened {snapshot : JobQueueSnapshot}
    : snapshot.reopened.Same snapshot.unlocked
      ↔ ∀ job ∈ snapshot.allJobs, job.reopened = job.unlocked := by
  constructor
  · intro same job member
    rcases mem_allJobs.mp member with stored | next | ⟨flow, listed, within⟩
    · exact List.map_inj_left.mp same.jobs job stored
    · exact List.map_inj_left.mp same.nextJobs job next
    · have kept := List.map_inj_left.mp same.nextFlows flow listed
      exact JobFlow.reopened_eq_unlocked.mp kept job within
  · intro same
    constructor
    · rfl
    · rfl
    · rfl
    · rfl
    · exact List.map_inj_left.mpr fun job member => same job (mem_allJobs.mpr (.inl member))
    · exact List.map_inj_left.mpr fun job member =>
        same job (mem_allJobs.mpr (.inr (.inl member)))
    · refine List.map_inj_left.mpr fun flow listed => JobFlow.reopened_eq_unlocked.mpr ?_
      exact fun job within => same job (mem_allJobs.mpr (.inr (.inr ⟨flow, listed, within⟩)))
    · rfl
    · refine List.forall₂_map_left_iff.mpr (List.forall₂_same.mpr ?_)
      exact fun index _ => index.same_reopened

namespace InMemoryJobQueueState

variable {P : Contents → Prop} {serde : Serde} {queue : QueueName} {s : InMemoryJobQueueState}

-----------------------------------------------------------------------------------------
-- States and their snapshots
-----------------------------------------------------------------------------------------

/-- The snapshot holds all records of the queue. -/
theorem stores_iff (queue : QueueName)
    : s.Stores P ↔ ∀ job ∈ (s.snapshot queue).allJobs, P job.contents := by
  simp only [JobQueueSnapshot.mem_allJobs, snapshot, List.mem_insertionSort, List.mem_map]
  constructor
  · intro stores job member
    rcases member with stored | ⟨entry, listed, rfl⟩ | ⟨flow, ⟨entry, listed, rfl⟩, within⟩
    · exact stores.retained (JobMap.mem_values.mp stored)
    · exact stores.next (AList.mem_lookup_iff.mpr listed)
    · have found := AList.mem_lookup_iff.mpr listed
      rcases List.mem_cons.mp within with rfl | child
      · exact stores.nextParent found
      · exact stores.nextChild found job child
  · intro holds
    constructor
    · intro id job found
      obtain rfl := JobMap.get_id found
      exact holds job (.inl (JobMap.mem_values.mpr found))
    · intro id job found
      exact holds job (.inr (.inl ⟨⟨id, job⟩, AList.mem_lookup_iff.mp found, rfl⟩))
    · intro id flow found
      exact holds flow.parent (.inr (.inr
        ⟨flow, ⟨⟨id, flow⟩, AList.mem_lookup_iff.mp found, rfl⟩, List.mem_cons_self⟩))
    · intro id flow found child member
      exact holds child (.inr (.inr
        ⟨flow, ⟨⟨id, flow⟩, AList.mem_lookup_iff.mp found, rfl⟩, List.mem_cons_of_mem _ member⟩))

theorem loadJobSnapshot_some {written : Value} {opened : JobQueueSnapshot}
    : loadJobSnapshot serde (some written) = .ok (some opened)
      ↔ JobQueueSnapshot.deserialize serde written = some opened := by
  cases reads : JobQueueSnapshot.deserialize serde written <;> simp [loadJobSnapshot, reads]

/-- A file opens as it should exactly when all contents in it survive. -/
theorem opens_iff : Opens serde queue s ↔ s.Stores Contents.Durable := by
  rw [stores_iff queue]
  constructor
  · rintro ⟨opened, loaded, same⟩ job member
    have reads := loadJobSnapshot_some.mp loaded
    have finite := JobQueueSnapshot.finite_of_deserialize reads
    obtain rfl : (s.snapshot queue).reopened = opened :=
      Option.some.inj ((JobQueueSnapshot.deserialize_serialize finite).symm.trans reads)
    have kept := JobQueueSnapshot.same_reopened.mp same job member
    obtain ⟨returnValue, progress⟩ := Job.reopened_eq_unlocked.mp kept
    exact ⟨finite job member, returnValue, progress⟩
  · intro durable
    refine ⟨(s.snapshot queue).reopened, ?_, JobQueueSnapshot.same_reopened.mpr ?_⟩
    · exact loadJobSnapshot_some.mpr (JobQueueSnapshot.deserialize_serialize fun job member =>
        (durable job member).finite)
    · intro job member
      have contents := durable job member
      exact Job.reopened_eq_unlocked.mpr ⟨contents.returnValue, contents.progress⟩

-----------------------------------------------------------------------------------------
-- Opening a queue
-----------------------------------------------------------------------------------------

/-- What is found in a collected map is one of its entries, by induction on them. -/
theorem mem_of_lookup_inserts {α : Type} {entries : List (String × α)}
    {collected : HashMap String α} {key : String} {value : α}
    (found : (entries.foldl (fun collected entry => collected.insert entry.1 entry.2)
      collected).lookup key = some value)
    : (key, value) ∈ entries ∨ collected.lookup key = some value := by
  induction entries generalizing collected with
  | nil => exact .inr found
  | cons entry rest ih =>
      rcases ih found with within | before
      · exact .inl (List.mem_cons_of_mem _ within)
      · by_cases same : key = entry.1
        · subst same
          rw [AList.lookup_insert] at before
          obtain rfl := Option.some.inj before
          exact .inl List.mem_cons_self
        · rw [AList.lookup_insert_ne same] at before
          exact .inr before

theorem mem_of_get_inserts {jobs : List Job} {collected : JobMap} {id : JobId} {job : Job}
    (found : (jobs.foldl JobMap.insert collected).get id = some job)
    : job ∈ jobs ∨ collected.get id = some job := by
  induction jobs generalizing collected with
  | nil => exact .inr found
  | cons first rest ih =>
      rcases ih found with within | before
      · exact .inl (List.mem_cons_of_mem _ within)
      · rw [JobMap.get_insert] at before
        split at before
        · obtain rfl := Option.some.inj before
          exact .inl List.mem_cons_self
        · exact .inr before

theorem mem_of_lookup_collectMap {α : Type} {items : List α} {key : α → Option String}
    {deduplicationId : String} {found : α}
    (known : (collectMap (items.filterMap (fun item =>
      (key item).map (fun deduplicationId => (deduplicationId, item))))).lookup deduplicationId
        = some found)
    : found ∈ items := by
  rcases mem_of_lookup_inserts known with member | before
  · obtain ⟨item, listed, same⟩ := List.mem_filterMap.mp member
    obtain ⟨_, _, equal⟩ := Option.map_eq_some_iff.mp same
    cases equal
    exact listed
  · cases before

/-- A queue takes its records from the snapshot that it is opened from. -/
theorem Stores.fromSnapshot {snapshot : JobQueueSnapshot}
    (holds : ∀ job ∈ snapshot.allJobs, P job.contents)
    : (InMemoryJobQueueState.fromSnapshot snapshot).Stores P := by
  constructor
  · intro id job found
    rcases mem_of_get_inserts found with listed | before
    · exact holds job (JobQueueSnapshot.mem_allJobs.mpr (.inl listed))
    · cases before
  · intro id job found
    exact holds job (JobQueueSnapshot.mem_allJobs.mpr
      (.inr (.inl (mem_of_lookup_collectMap found))))
  · intro id flow found
    exact holds flow.parent (JobQueueSnapshot.mem_allJobs.mpr
      (.inr (.inr ⟨flow, mem_of_lookup_collectMap found, List.mem_cons_self⟩)))
  · intro id flow found child member
    exact holds child (JobQueueSnapshot.mem_allJobs.mpr
      (.inr (.inr ⟨flow, mem_of_lookup_collectMap found, List.mem_cons_of_mem _ member⟩)))

end InMemoryJobQueueState

/-- The queue itself brings in nothing that does not survive. -/
theorem Contents.enduring_durable : Enduring Contents.Durable where
  unnamed _ durable := ⟨durable.finite, durable.returnValue, durable.progress⟩
  delayed _ _ durable := ⟨durable.finite, durable.returnValue, durable.progress⟩
  ordered _ _ _ durable := ⟨durable.finite, durable.returnValue, durable.progress⟩
  withdrawn _ durable := ⟨durable.finite, Option.some_ne_none _ ∘ Eq.symm, durable.progress⟩
  restarted _ durable :=
    ⟨durable.finite, Option.some_ne_none _ ∘ Eq.symm, Option.some_ne_none _ ∘ Eq.symm⟩

theorem Op.Durable.supplies {op : Op} (durable : op.Durable) (cron : Cron)
    : op.Supplies cron Contents.Durable where
  submits options member _ _ :=
    ⟨durable.finite options member, Option.some_ne_none _ ∘ Eq.symm,
      Option.some_ne_none _ ∘ Eq.symm⟩
  completes result c contents := by
    refine ⟨contents.finite, ?_, contents.progress⟩
    rw [← result]
    exact durable.result
  progresses progress c contents := by
    refine ⟨contents.finite, contents.returnValue, ?_⟩
    rw [← progress]
    exact durable.progress

-----------------------------------------------------------------------------------------
-- Every run
-----------------------------------------------------------------------------------------

/-- The records of the queue and of its file survive the file. -/
structure LocalJobQueue.Sound (serde : Serde) (queue : QueueName) (durable : LocalJobQueue) : Prop
    where
  inner : durable.inner.Stores Contents.Durable
  file
    : ∀ written, durable.file = some written →
        ∃ s : InMemoryJobQueueState,
          s.Stores Contents.Durable ∧ written = persistJobSnapshot serde (s.snapshot queue)

/-- Opening a file that was written when all records survive keeps them. -/
theorem stores_fromSnapshot {serde : Serde} {queue : QueueName} {s : InMemoryJobQueueState}
    {opened : JobQueueSnapshot} (stores : s.Stores Contents.Durable)
    (loaded : loadJobSnapshot serde (some (persistJobSnapshot serde (s.snapshot queue)))
      = .ok (some opened))
    : (InMemoryJobQueueState.fromSnapshot opened).Stores Contents.Durable := by
  have holds := (InMemoryJobQueueState.stores_iff queue).mp stores
  have reads := InMemoryJobQueueState.loadJobSnapshot_some.mp loaded
  have finite := JobQueueSnapshot.finite_of_deserialize reads
  obtain rfl : (s.snapshot queue).reopened = opened :=
    Option.some.inj ((JobQueueSnapshot.deserialize_serialize finite).symm.trans reads)
  refine InMemoryJobQueueState.Stores.fromSnapshot ?_
  intro job member
  obtain ⟨old, listed, rfl⟩ := JobQueueSnapshot.mem_allJobs_reopened.mp member
  have contents := holds old listed
  rw [Job.reopened_eq_unlocked.mpr ⟨contents.returnValue, contents.progress⟩]
  exact contents

theorem LocalJobQueue.Sound.step {serde : Serde} {cron : Cron} {queue : QueueName}
    {before after : LocalJobQueue} {action : LocalJobQueue.Action}
    (sound : before.Sound serde queue) (durable : action.Durable)
    (step : LocalJobQueue.Step serde cron queue before action after)
    : after.Sound serde queue := by
  cases step with
  | @serves call fresh =>
      exact ⟨sound.inner.step Contents.enduring_durable (durable.supplies cron) call.find queue,
        sound.file⟩
  | persists =>
      refine ⟨sound.inner, ?_⟩
      intro written persisted
      exact ⟨before.inner, sound.inner, (Option.some.inj persisted).symm⟩
  | opensNew => exact ⟨.empty, sound.file⟩
  | opens loaded =>
      refine ⟨?_, sound.file⟩
      cases file : before.file with
      | none =>
          rw [file] at loaded
          cases loaded
      | some written =>
          obtain ⟨s, stores, rfl⟩ := sound.file written file
          rw [file] at loaded
          exact stores_fromSnapshot stores loaded

/-- In every run whose operations take in finite multipliers and no `null` result or progress, the
file opens as it should; in any state it does exactly when no stored record has one of these.
-/
theorem snapshot_files_open {serde : Serde} {cron : Cron} {queue : QueueName}
    {durable : LocalJobQueue}
    (run : (LocalJobQueue.system serde cron queue).Run (fun _ action => action.Durable) {} durable)
    : Opens serde queue durable.inner
      ∧ ∀ s, Opens serde queue s ↔ s.Stores Contents.Durable := by
  have sound : durable.Sound serde queue := by
    refine run.invariant (LocalJobQueue.Sound serde queue) ?_ ?_
    · exact ⟨.empty, fun _ none => nomatch none⟩
    · intro before action after sound durable step
      exact sound.step durable step
  exact ⟨InMemoryJobQueueState.opens_iff.mpr sound.inner, fun _ => InMemoryJobQueueState.opens_iff⟩

-----------------------------------------------------------------------------------------
-- Files that do not open as they should
-----------------------------------------------------------------------------------------

/-- A time other than the epoch by the sign and the digits of its nanoseconds. -/
def signedDigits (time : DateTime) : List Char :=
  (if time < 0 then '-' else '+') :: Numeral.padded 1 time.natAbs

def parseSigned : List Char → Option DateTime
  | '-' :: digits => some (-(Nat.ofDigitChars 10 digits 0 : Int))
  | '+' :: digits => some (Nat.ofDigitChars 10 digits 0)
  | _ => none

theorem parseSigned_signedDigits (time : DateTime)
    : parseSigned (signedDigits time) = some time := by
  unfold signedDigits
  by_cases negative : time < 0
  · rw [if_pos negative, parseSigned, Numeral.value_padded]
    congr 1
    exact Int.neg_eq_comm.mp (Int.ofNat_natAbs_of_nonpos (Int.le_of_lt negative)).symm
  · rw [if_neg negative, parseSigned, Numeral.value_padded]
    congr 1
    exact Int.natAbs_of_nonneg (Int.not_lt.mp negative)

theorem signedDigits_ne_epoch (time : DateTime)
    : signedDigits time ≠ "1970-01-01T00:00:00Z".toList := by
  intro same
  have head := congrArg (fun text => text.head?) same
  unfold signedDigits at head
  split at head <;> cases head

/-- The epoch is written as such, and other times by their nanoseconds. -/
def epochSerde : Serde where
  dateText time := if time = 0 then "1970-01-01T00:00:00Z" else .ofList (signedDigits time)
  parseDate text :=
    if text = "1970-01-01T00:00:00Z" then some 0 else parseSigned text.toList
  parse_dateText time := by
    by_cases epoch : time = 0
    · rw [if_pos epoch, if_pos rfl, epoch]
    · have other : String.ofList (signedDigits time) ≠ "1970-01-01T00:00:00Z" := by
        intro same
        apply signedDigits_ne_epoch time
        rw [← same, String.toList_ofList]
      rw [if_neg epoch, if_neg other, String.toList_ofList]
      exact parseSigned_signedDigits time
  errorText _ := "invalid type: null, expected f64"

/-- A policy whose delays grow without bounds. -/
def unboundedBackoff : RetryPolicy :=
  { maxRetries := 3, initialDelay := 100000000, maxDelay := 30000000000, multiplier := 1 / 0 }

def unboundedJob : LocalJobQueue :=
  { inner :=
      step noCron .first "queue" {}
        (.addAt "work" .null { retryPolicy := unboundedBackoff } 0 "job") }

/-- A job that is completed with a `null`. -/
def nullResult : List Call :=
  [ { op := .addAt "work" .null {} 0 "job" },
    { op := .claimNext "worker" 10 0 "lease" },
    { op := .completeJob "job" "lease" .null 0 "next" } ]

def nullJob : LocalJobQueue := { inner := serve noCron "queue" {} nullResult }

/-- The calls on the inner queue, one after the other, by induction on them. -/
theorem LocalJobQueue.run_serve {serde : Serde} {cron : Cron} {queue : QueueName}
    {allow : LocalJobQueue → Action → Prop} {calls : List Call} {s : InMemoryJobQueueState}
    (fresh : FreshCalls cron queue s calls)
    (allowed : ∀ call ∈ calls, ∀ durable, allow durable (.serves call))
    : (LocalJobQueue.system serde cron queue).Run allow { inner := s }
        { inner := serve cron queue s calls } := by
  induction calls generalizing s with
  | nil => exact .refl _
  | cons call rest ih =>
      have first
          : (LocalJobQueue.system serde cron queue).Run allow { inner := s }
              { inner := Lane.step cron call.find queue s call.op } :=
        .single (allowed call List.mem_cons_self _) (.serves fresh.1)
      exact first.trans (ih fresh.2 (fun later member => allowed later (.tail _ member)))

theorem reaches_unboundedJob
    : (LocalJobQueue.system epochSerde noCron "queue").Reaches {} unboundedJob :=
  @LocalJobQueue.run_serve _ _ _ _
    [{ op := .addAt "work" .null { retryPolicy := unboundedBackoff } 0 "job" }] {}
    (by decide +kernel) (fun _ _ _ => trivial)

theorem reaches_nullJob
    : (LocalJobQueue.system epochSerde noCron "queue").Reaches {} nullJob :=
  @LocalJobQueue.run_serve _ _ _ _ nullResult {} (by decide +kernel) (fun _ _ _ => trivial)

/-- A stored job that does not survive the file keeps it from opening as it should. -/
theorem not_opens_of_stored {serde : Serde} {queue : QueueName} {s : InMemoryJobQueueState}
    {id : JobId} {job : Job} (found : s.jobs.get id = some job)
    (lost : ¬ Contents.Durable job.contents)
    : ¬ Opens serde queue s :=
  fun opens => lost ((InMemoryJobQueueState.opens_iff.mp opens).retained found)

/-- An unbounded multiplier makes the file unreadable. -/
theorem unboundedJob_unreadable
    : loadJobSnapshot epochSerde
          (some (persistJobSnapshot epochSerde (unboundedJob.inner.snapshot "queue")))
        = .error (.other "failed to decode job snapshot: invalid type: null, expected f64")
      ∧ ¬ Opens epochSerde "queue" unboundedJob.inner := by
  have stored
      : (unboundedJob.inner.jobs.get "job").map
          (fun job => job.options.retryPolicy.multiplier.isFinite)
        = some false := by
    decide +kernel
  obtain ⟨job, found, infinite⟩ := Option.map_eq_some_iff.mp stored
  have member : job ∈ (unboundedJob.inner.snapshot "queue").allJobs := by
    have own : unboundedJob.inner.jobs.get job.id = some job := by
      rw [JobMap.get_id found]
      exact found
    refine JobQueueSnapshot.mem_allJobs.mpr (.inl ((List.mem_insertionSort _).mpr ?_))
    exact JobMap.mem_values.mpr own
  constructor
  · unfold loadJobSnapshot
    cases reads : JobQueueSnapshot.deserialize epochSerde
      (persistJobSnapshot epochSerde (unboundedJob.inner.snapshot "queue")) with
    | none => rfl
    | some opened =>
        have finite := JobQueueSnapshot.finite_of_deserialize reads job member
        rw [infinite] at finite
        cases finite
  · refine not_opens_of_stored found ?_
    intro durable
    have finite : job.options.retryPolicy.multiplier.isFinite = true := durable.finite
    rw [infinite] at finite
    cases finite

/-- A `null` result is lost in the file. -/
theorem nullJob_not_opens : ¬ Opens epochSerde "queue" nullJob.inner := by
  have stored
      : (nullJob.inner.jobs.get "job").map (fun job => job.returnValue.any Value.isNull)
        = some true := by
    decide +kernel
  obtain ⟨job, found, null⟩ := Option.map_eq_some_iff.mp stored
  refine not_opens_of_stored found ?_
  intro durable
  apply durable.returnValue
  cases returned : job.returnValue with
  | none =>
      rw [returned] at null
      cases null
  | some value =>
      rw [returned] at null
      cases value <;> cases null
      exact returned

/-- A job with an unbounded multiplier and a `null` result are both accepted. The file of the one
cannot be decoded, and the file of the other opens without the result.
-/
theorem snapshot_file_unreadable
    : (¬ ∀ (serde : Serde) (cron : Cron) (queue : QueueName) (durable : LocalJobQueue),
          (LocalJobQueue.system serde cron queue).Reaches {} durable
          → Opens serde queue durable.inner)
      ∧ loadJobSnapshot epochSerde
          (some (persistJobSnapshot epochSerde (unboundedJob.inner.snapshot "queue")))
        = .error (.other "failed to decode job snapshot: invalid type: null, expected f64")
      ∧ (LocalJobQueue.system epochSerde noCron "queue").Reaches {} nullJob
      ∧ ¬ Opens epochSerde "queue" nullJob.inner := by
  refine ⟨?_, unboundedJob_unreadable.1, reaches_nullJob, nullJob_not_opens⟩
  intro opens
  exact unboundedJob_unreadable.2
    (opens epochSerde noCron "queue" unboundedJob reaches_unboundedJob)

/-- A job that was completed with a number. -/
def numberResult : List Call :=
  [ { op := .addAt "work" .null {} 0 "job" },
    { op := .claimNext "worker" 10 0 "lease" },
    { op := .completeJob "job" "lease" (.number 1) 0 "next" } ]

/-- A job that was completed with a number, and the file of its queue. -/
theorem snapshot_files_open_number
    : Opens epochSerde "queue" (serve noCron "queue" {} numberResult)
      ∧ ∀ s, Opens epochSerde "queue" s ↔ s.Stores Contents.Durable := by
  have durable : ∀ call ∈ numberResult, call.op.Durable := by
    intro call member
    simp only [numberResult, List.mem_cons, List.not_mem_nil, or_false] at member
    rcases member with rfl | rfl | rfl
    · refine ⟨?_, Option.some_ne_none _ ∘ Eq.symm, Option.some_ne_none _ ∘ Eq.symm⟩
      intro options submitted
      obtain rfl := List.mem_singleton.mp submitted
      decide +kernel
    · refine ⟨?_, Option.some_ne_none _ ∘ Eq.symm, Option.some_ne_none _ ∘ Eq.symm⟩
      intro options submitted
      cases submitted
    · refine ⟨?_, ?_, Option.some_ne_none _ ∘ Eq.symm⟩
      · intro options submitted
        cases submitted
      · intro null
        cases null
  have served
      : (LocalJobQueue.system epochSerde noCron "queue").Run (fun _ action => action.Durable) {}
          { inner := serve noCron "queue" {} numberResult } :=
    LocalJobQueue.run_serve (by decide +kernel) (fun call member _ => durable call member)
  have persists : (LocalJobQueue.Action.persists).Durable := trivial
  exact snapshot_files_open (served.tail persists .persists)

end Lane
