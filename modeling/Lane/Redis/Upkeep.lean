import Lane.Redis.Leases

/-! The other scripts on keys that are in order: recovery takes stalled jobs from their workers, and
those that add, promote or edit jobs leave every lease as it is.
-/

namespace Lane

namespace Keyspace

open Redis

variable {keys middle after : Keyspace} {job : Job} {jobId id : JobId}

-----------------------------------------------------------------------------------------
-- Recovery
-----------------------------------------------------------------------------------------

theorem Filed.requeueStalled {loose : Set JobId} (filed : keys.Filed (insert jobId loose))
    (settled : jobId ∉ loose) (job : Job) (named : job.id = jobId)
    : Files loose keys (keys.requeueStalled jobId job) :=
  filed.enqueueWaitingJob settled { stalledJob job with state := .waiting, processedAt := none }
    named rfl rfl

theorem Filed.failStalled {record : Job} (filed : keys.Filed (insert jobId ∅))
    (found : keys.jobs jobId = some record) (job : Job) (named : job.id = jobId) (now : DateTime)
    : Files ∅ keys (keys.failStalled jobId job now).1 := by
  have unsettled : ∀ id, id ∉ (∅ : Set JobId) := Set.notMem_empty
  let failed := failedJob job now
  have cleared : Files (insert jobId ∅) keys (keys.deleteDependencies jobId) :=
    filed.aside (.of_filing rfl)
  have given := cleared.filed.aside
    (releaseDeduplicationKey_aside (keys.deleteDependencies jobId) failed jobId)
  have unrepeated := given.filed.aside (releaseRepeatKey_aside _ failed jobId)
  have taken : ∀ id, (((keys.deleteDependencies jobId).releaseDeduplicationKeyOnFinalization
      failed jobId).releaseRepeatKey failed jobId).jobs id = none
      → id ∉ insert jobId (∅ : Set JobId) := by
    intro id absent held
    have own : id = jobId := by simpa using held
    rw [releaseRepeatKey_jobs, release_jobs, own] at absent
    rw [show (keys.deleteDependencies jobId).jobs jobId = some record from found] at absent
    cases absent
  have entered := unrepeated.filed.enqueueDeduplicatedNext taken failed now
  have recorded : Files ∅ keys (keys.recordFailure jobId failed now) := by
    refine ((cleared.trans given).trans (unrepeated.trans entered)).trans ?_
    exact entered.filed.storeCounted (unsettled _) failed .failed named rfl (timestampMillis now) _
  exact recorded.trans
    (recorded.filed.settleFailedChild (fun id _ _ _ => unsettled id) jobId failed now)

/-- What recovery does to the leases: some of the popped jobs lose theirs, which had expired. -/
structure Recovers (popped : List JobId) (before after : Keyspace) : Prop where
  filed : after.InOrder
  locks : after.locks = before.locks
  stalled : after.stalled = before.stalled
  active
    : ∀ id,
        after.active.lookup id = before.active.lookup id
        ∨ id ∈ popped ∧ after.active.lookup id = none
  flows
    : ∀ id parent children,
        after.deduplicationNext id = some (.flow parent children)
        → before.deduplicationNext id = some (.flow parent children)

theorem Recovers.refl (filed : keys.InOrder) (popped : List JobId) : Recovers popped keys keys :=
  ⟨filed, rfl, rfl, fun _ => .inl rfl, fun _ _ _ stored => stored⟩

theorem Recovers.of_files {popped : List JobId} (files : Files ∅ keys after)
    : Recovers popped keys after :=
  ⟨files.filed, files.steady.locks, files.steady.stalled,
    fun id => .inl (by rw [files.steady.active]), files.steady.flows⟩

theorem Recovers.trans {rest : List JobId} (first : Recovers [jobId] keys middle)
    (second : Recovers rest middle after)
    : Recovers (jobId :: rest) keys after where
  filed := second.filed
  locks := second.locks.trans first.locks
  stalled := second.stalled.trans first.stalled
  active id := by
    rcases second.active id with same | ⟨popped, gone⟩
    · rcases first.active id with still | ⟨popped, gone⟩
      · exact .inl (same.trans still)
      · exact .inr ⟨List.mem_cons.mpr (.inl (List.mem_singleton.mp popped)), same.trans gone⟩
    · exact .inr ⟨List.mem_cons_of_mem _ popped, gone⟩
  flows id parent children stored :=
    first.flows id parent children (second.flows id parent children stored)

/-- Everything that follows once the job has left the active set is steady. -/
theorem Recovers.of_left (files : Files ∅ (keys.leaveActive jobId) after)
    : Recovers [jobId] keys after := by
  refine ⟨files.filed, files.steady.locks, files.steady.stalled, ?_, files.steady.flows⟩
  intro id
  rw [files.steady.active]
  by_cases own : id = jobId
  · rw [own]
    exact .inr ⟨List.mem_singleton_self jobId, AList.lookup_erase _ _⟩
  · exact .inl (AList.lookup_erase_ne own)

/-- One turn of the loop; the job has left the stalled set. -/
theorem Filed.recoverJob (filed : keys.InOrder) (popped : jobId ∉ keys.stalled) (now : DateTime)
    : Recovers [jobId] keys (keys.recoverJob jobId now).1 := by
  have unsettled : jobId ∉ (∅ : Set JobId) := Set.notMem_empty jobId
  unfold Keyspace.recoverJob
  cases found : keys.jobs jobId with
  | none =>
      dsimp only
      rw [leaveActive_eq_self (filed.active_absent unsettled (by simp [found]))]
      exact .refl filed _
  | some job =>
      have named := filed.named unsettled found
      dsimp only
      split
      · next idle =>
          rw [leaveActive_eq_self (filed.active_absent unsettled (by simpa [found] using idle))]
          exact .refl filed _
      · next active =>
          split
          · exact .refl filed _
          · next locked =>
              have unlocked : keys.locks jobId = none := by simpa using locked
              have left := filed.leaveActive unsettled found (not_not.mp active) unlocked popped
              have checked := left.aside
                (isCurrentRepeatSchedulerJob_aside _ (stalledJob job) jobId)
              have still : ((keys.leaveActive jobId).isCurrentRepeatSchedulerJob (stalledJob job)
                  jobId).1.jobs jobId = some job := by
                rw [filing_eq (isCurrentRepeatSchedulerJob_filing _ (stalledJob job) jobId)
                  Keyspace.jobs (fun _ => rfl)]
                exact found
              split
              · exact .of_left (left.requeueStalled unsettled job named)
              · split
                · exact .of_left (checked.trans (checked.filed.requeueStalled unsettled job named))
                · exact .of_left (checked.trans (checked.filed.failStalled still job named now))

/-- The loop, by induction on the popped ids. -/
theorem Filed.recoverJobs {popped : List JobId} (filed : keys.InOrder)
    (left : ∀ jobId ∈ popped, jobId ∉ keys.stalled) (now : DateTime)
    : Recovers popped keys (keys.recoverJobs now popped).1 := by
  induction popped generalizing keys with
  | nil => exact .refl filed _
  | cons jobId rest ih =>
      have first := filed.recoverJob (left jobId List.mem_cons_self) now
      have later : Recovers rest (keys.recoverJob jobId now).1
          ((keys.recoverJob jobId now).1.recoverJobs now rest).1 := by
        refine ih first.filed ?_
        intro other member
        rw [first.stalled]
        exact left other (List.mem_cons_of_mem _ member)
      unfold Keyspace.recoverJobs
      rcases turn : keys.recoverJob jobId now with ⟨middle, outcome⟩
      rw [turn] at first later
      cases outcome with
      | aborted => exact first.trans (.refl first.filed rest)
      | skipped => exact first.trans later
      | recovered => exact first.trans later

/-- The script: it pops ids from the stalled set, and in the end fills it with the active jobs. -/
theorem Filed.recoverStalled (filed : keys.InOrder) (popped : List JobId) (now : DateTime)
    : let after := (keys.recoverStalled popped now).1
      after.InOrder
      ∧ after.locks = keys.locks
      ∧ ∀ id,
          after.active.lookup id = keys.active.lookup id
          ∨ id ∈ popped ∧ after.active.lookup id = none := by
  let begun : Keyspace := { keys with stalled := keys.stalled \ popped.toFinset }
  have begins : begun.InOrder := by
    refine filed.stays (fun _ => rfl) rfl filed.locked ?_ filed.flows
    intro id listed
    exact filed.stalled id (Finset.mem_sdiff.mp listed).1
  have recovers : Recovers popped begun (begun.recoverJobs now popped).1 := by
    refine begins.recoverJobs ?_ now
    intro id member listed
    exact (Finset.mem_sdiff.mp listed).2 (List.mem_toFinset.mpr member)
  dsimp only
  unfold Keyspace.recoverStalled
  dsimp only
  rcases turned : begun.recoverJobs now popped with ⟨middle, recovered⟩
  rw [turned] at recovers
  cases recovered with
  | none => exact ⟨recovers.filed, recovers.locks, recovers.active⟩
  | some count =>
      refine ⟨?_, recovers.locks, recovers.active⟩
      refine recovers.filed.stays (fun _ => rfl) rfl recovers.filed.locked ?_ recovers.filed.flows
      intro id listed
      rcases Finset.mem_union.mp listed with before | active
      · exact recovers.filed.stalled id before
      · exact AList.lookup_isSome.mpr (List.mem_toFinset.mp active)

-----------------------------------------------------------------------------------------
-- Promotion
-----------------------------------------------------------------------------------------

/-- One turn of the promotion loop. -/
theorem Filed.promoteDueJob (filed : keys.InOrder) (jobId : JobId)
    : Files ∅ keys (keys.promoteDueJob jobId).1 := by
  have unsettled : jobId ∉ (∅ : Set JobId) := Set.notMem_empty jobId
  unfold Keyspace.promoteDueJob
  cases found : keys.jobs jobId with
  | none =>
      dsimp only
      rw [leaveDelayed_eq_self (filed.delayed_absent unsettled (by simp [found]))]
      exact .refl filed
  | some job =>
      have named := filed.named unsettled found
      dsimp only
      split
      · next delayed =>
          have left := filed.leaveDelayed unsettled found delayed
          have entered := left.filed.enqueueWaitingJob unsettled { job with state := .waiting } named
            rfl rfl
          exact (left.trans entered).trans
            (entered.filed.aside (syncRepeatScheduler_aside _ _ jobId _))
      · next other =>
          rw [leaveDelayed_eq_self (filed.delayed_absent unsettled (by simpa [found] using other))]
          exact .refl filed

theorem Filed.promoteDueJobs (filed : keys.InOrder) (jobIds : List JobId)
    : Files ∅ keys (keys.promoteDueJobs jobIds).1 := by
  induction jobIds generalizing keys with
  | nil => exact .refl filed
  | cons jobId rest ih =>
      have first := filed.promoteDueJob jobId
      exact first.trans (ih first.filed)

theorem Filed.promoteDue (filed : keys.InOrder) (nowMillis : Int)
    : Files ∅ keys (keys.promoteDue nowMillis).1 :=
  filed.promoteDueJobs _

/-- A delayed job is taken out of its set, or the call is rejected and nothing has changed. -/
theorem Filed.takeDelayed (filed : keys.InOrder) (jobId : JobId)
    : (∃ job,
        keys.jobs jobId = some job ∧ job.state = .delayed
        ∧ keys.takeDelayed jobId = (keys.leaveDelayed jobId, .ok job))
      ∨ ∃ reply,
          reply.isOk = false ∧ keys.takeDelayed jobId = (keys, .error reply) := by
  have unsettled : jobId ∉ (∅ : Set JobId) := Set.notMem_empty jobId
  unfold Keyspace.takeDelayed
  cases found : keys.jobs jobId with
  | none =>
      dsimp only
      rw [leaveDelayed_eq_self (filed.delayed_absent unsettled (by simp [found]))]
      exact .inr ⟨.missing, rfl, rfl⟩
  | some job =>
      dsimp only
      split
      · next other =>
          rw [leaveDelayed_eq_self (filed.delayed_absent unsettled (by simpa [found] using other))]
          exact .inr ⟨.state job.state, rfl, rfl⟩
      · next delayed =>
          split
          · next absent =>
              rw [leaveDelayed_eq_self (Option.isNone_iff_eq_none.mp absent)]
              exact .inr ⟨.indexMissing, rfl, rfl⟩
          · exact .inl ⟨job, rfl, not_not.mp delayed, rfl⟩

/-- The call was accepted and no lease changed, or it was rejected and nothing changed. -/
structure Handles (keys : Keyspace) (accepted : Bool) (after : Keyspace) : Prop where
  files : Files ∅ keys after
  rejected : accepted = false → after = keys

theorem Filed.promoteJob (filed : keys.InOrder) (jobId : JobId) (now : DateTime)
    : keys.Handles (keys.promoteJob jobId now).2.isOk (keys.promoteJob jobId now).1 := by
  have unsettled : jobId ∉ (∅ : Set JobId) := Set.notMem_empty jobId
  unfold Keyspace.promoteJob
  rcases filed.takeDelayed jobId with ⟨job, found, delayed, taken⟩ | ⟨reply, _, taken⟩
  · have named := filed.named unsettled found
    have left := filed.leaveDelayed unsettled found delayed
    have entered := left.filed.enqueueWaitingJob unsettled
      { job with state := .waiting, scheduledAt := now } named rfl rfl
    simp only [taken]
    refine ⟨?_, fun rejected => by cases rejected⟩
    exact (left.trans entered).trans (entered.filed.aside (syncRepeatScheduler_aside _ _ jobId _))
  · simp only [taken]
    exact ⟨.refl filed, fun _ => rfl⟩

theorem Filed.rescheduleJob (filed : keys.InOrder) (jobId : JobId) (delay : Duration)
    (scheduledAt : DateTime)
    : keys.Handles (keys.rescheduleJob jobId delay scheduledAt).2.isOk
        (keys.rescheduleJob jobId delay scheduledAt).1 := by
  have unsettled : jobId ∉ (∅ : Set JobId) := Set.notMem_empty jobId
  unfold Keyspace.rescheduleJob
  rcases filed.takeDelayed jobId with ⟨job, found, delayed, taken⟩ | ⟨reply, _, taken⟩
  · have named := filed.named unsettled found
    have left := filed.leaveDelayed unsettled found delayed
    have entered := left.filed.addDelayed unsettled
      { job with scheduledAt, options := { job.options with delay := some delay } } named delayed
      (timestampMillis scheduledAt)
    simp only [taken]
    refine ⟨?_, fun rejected => by cases rejected⟩
    exact (left.trans entered).trans (entered.filed.aside (syncRepeatScheduler_aside _ _ jobId _))
  · simp only [taken]
    exact ⟨.refl filed, fun _ => rfl⟩

-----------------------------------------------------------------------------------------
-- Edits
-----------------------------------------------------------------------------------------

/-- Edits of fields that are not part of a tag leave every job in its place. -/
theorem Filed.editJob (filed : keys.InOrder) (jobId : JobId) (edit : Job → Job)
    (same : ∀ job, (edit job).tag = job.tag)
    : keys.Handles (keys.editJob jobId edit).2.isOk (keys.editJob jobId edit).1 := by
  unfold Keyspace.editJob
  cases found : keys.jobs jobId with
  | none => exact ⟨.refl filed, fun _ => rfl⟩
  | some job =>
      refine ⟨filed.aside (.setJob found (same job)), ?_⟩
      intro rejected
      cases rejected

/-- A waiting job is filed anew under its priority; others keep their place. -/
theorem Filed.updatePriority (filed : keys.InOrder) (jobId : JobId) (priority : JobPriority)
    (lifo : Option Bool)
    : keys.Handles (keys.updatePriority jobId priority lifo).2.isOk
        (keys.updatePriority jobId priority lifo).1 := by
  have unsettled : jobId ∉ (∅ : Set JobId) := Set.notMem_empty jobId
  unfold Keyspace.updatePriority
  cases found : keys.jobs jobId with
  | none =>
      dsimp only
      rw [leaveWaiting_eq_self (filed.waiting_absent unsettled (by simp [found]))]
      exact ⟨.refl filed, fun _ => rfl⟩
  | some job =>
      have named := filed.named unsettled found
      dsimp only
      split
      · next waits =>
          have left := filed.leaveWaiting unsettled found waits
          have entered := left.filed.enqueueWaitingJob unsettled (prioritized job priority lifo) named
            waits rfl
          have again : ({ keys with waiting := keys.waiting.erase jobId }
              : Keyspace).enqueueWaitingJob (prioritized job priority lifo) jobId
                (prioritized job priority lifo).priority
              = keys.enqueueWaitingJob (prioritized job priority lifo) jobId priority := by
            simp only [Keyspace.enqueueWaitingJob, Keyspace.setJob, SortedSet.add_erase]
            rfl
          rw [again] at entered
          refine ⟨left.trans entered, ?_⟩
          intro rejected
          cases rejected
      · next other =>
          have busy : job.state ≠ .waiting := other
          rw [leaveWaiting_eq_self (filed.waiting_absent unsettled (by simpa [found] using busy))]
          refine ⟨filed.aside (.setJob found ?_), ?_⟩
          · rw [Job.tag, Job.tag, if_neg other, if_neg busy]
            rfl
          · intro rejected
            cases rejected

-----------------------------------------------------------------------------------------
-- Additions
-----------------------------------------------------------------------------------------

theorem activeDeduplicated_aside (keys : Keyspace) (id : String)
    : Aside keys (keys.activeDeduplicated id).1 := by
  unfold activeDeduplicated
  split
  · exact .refl keys
  · split
    · exact .of_filing rfl
    · split <;> exact .of_filing rfl

theorem activeDeduplicated_jobs (keys : Keyspace) (id : String)
    : (keys.activeDeduplicated id).1.jobs = keys.jobs := by
  unfold activeDeduplicated
  split
  · rfl
  · split
    · rfl
    · split <;> rfl

/-- The owner that is found has a record. -/
theorem activeDeduplicated_found {existing : Job}
    (found : (keys.activeDeduplicated id).2 = some existing)
    : ∃ jobId, keys.jobs jobId = some existing := by
  unfold activeDeduplicated at found
  split at found
  · cases found
  · next owner _ =>
      split at found
      · cases found
      · next record known =>
          split at found
          · cases found
          · cases found
            exact ⟨owner.jobId, known⟩

theorem activeRepeat_filing (keys : Keyspace) (key : String)
    : (keys.activeRepeat key).1.filing = keys.filing := by
  unfold activeRepeat
  split
  · rfl
  · dsimp only
    split
    · rfl
    · split <;> rfl

theorem activeSeries_filing (keys : Keyspace) (job : Job)
    : (keys.activeSeries job).1.filing = keys.filing := by
  unfold activeSeries
  split
  · rfl
  · exact activeRepeat_filing keys _

theorem takeDeduplicationKey_aside (keys : Keyspace) (job : Job) (jobId : JobId)
    (keepExistingTtl : Bool)
    : Aside keys (keys.takeDeduplicationKey job jobId keepExistingTtl) := by
  unfold takeDeduplicationKey
  split
  · exact .refl keys
  · dsimp only
    split
    · exact .of_filing rfl
    · exact setDeduplicationKey_aside keys job jobId

theorem extendOwner_aside (keys : Keyspace) (id : String) (candidate existing : Job)
    : Aside keys (keys.extendOwner id candidate existing) := by
  unfold extendOwner
  split
  · exact .refl keys
  · split
    · exact .refl keys
    · split
      · exact .refl keys
      · exact .of_filing rfl

/-- A stored job is no flow. -/
theorem storeNext_aside (keys : Keyspace) (id : String) (candidate : Job)
    : Aside keys (keys.storeNext id candidate) := by
  have stored : Aside keys
      { keys with
        deduplicationNext := Function.update keys.deduplicationNext id (some (.job candidate)) } := by
    refine ⟨fun _ => rfl, rfl, rfl, rfl, rfl, ?_⟩
    intro other parent children stored
    by_cases own : other = id
    · rw [own] at stored
      simp at stored
    · simpa [own] using stored
  unfold storeNext
  dsimp only
  split
  · exact stored
  · exact stored.trans (.of_filing rfl)

theorem storeNext_jobs (keys : Keyspace) (id : String) (candidate : Job)
    : (keys.storeNext id candidate).jobs = keys.jobs := by
  unfold storeNext
  dsimp only
  split <;> rfl

theorem extendOwner_jobs (keys : Keyspace) (id : String) (candidate existing : Job)
    : (keys.extendOwner id candidate existing).jobs = keys.jobs := by
  unfold extendOwner
  split
  · rfl
  · split
    · rfl
    · split <;> rfl

/-- A step of an addition: no lease changes, and no record is made. -/
structure Readies (before after : Keyspace) : Prop where
  files : Files ∅ before after
  jobs : ∀ id, before.jobs id = none → after.jobs id = none

theorem Readies.trans (first : Readies keys middle) (second : Readies middle after)
    : Readies keys after :=
  ⟨first.files.trans second.files, fun id absent => second.jobs id (first.jobs id absent)⟩

theorem Readies.aside (filed : keys.InOrder) (aside : Aside keys after)
    (same : after.jobs = keys.jobs)
    : Readies keys after :=
  ⟨filed.aside aside, fun _ absent => by rw [same, absent]⟩

/-- A duplicate replaces a delayed owner, or the owner stays. -/
theorem Filed.coalesce (filed : keys.InOrder) (id : String) (job : Job) {existing : Job}
    (found : keys.jobs existing.id = some existing)
    : Readies keys (keys.coalesce id job existing).1 := by
  have unsettled : existing.id ∉ (∅ : Set JobId) := Set.notMem_empty _
  unfold Keyspace.coalesce
  split
  · next replaces =>
      split
      · have delayed : existing.state = .delayed := by
          simp only [canReplaceOwner, Bool.and_eq_true, beq_iff_eq] at replaces
          tauto
        have left := filed.leaveDelayed unsettled found delayed
        refine ⟨left.trans (left.filed.deleteJob unsettled), ?_⟩
        intro id absent
        by_cases own : id = existing.id
        · simp [Keyspace.deleteJob, own]
        · simpa [Keyspace.deleteJob, own] using absent
      · exact .aside filed (.refl keys) rfl
  · split
    · exact .aside filed (storeNext_aside keys id job) (storeNext_jobs keys id job)
    · exact .aside filed (extendOwner_aside keys id job existing) (extendOwner_jobs keys id job existing)

theorem Filed.deduplicate (filed : keys.InOrder) (job : Job)
    : Readies keys (keys.deduplicate job).1 := by
  unfold Keyspace.deduplicate
  split
  · exact .aside filed (.refl keys) rfl
  · next id _ =>
      have aside := activeDeduplicated_aside keys id
      have jobs := activeDeduplicated_jobs keys id
      rcases active : keys.activeDeduplicated id with ⟨looked, owner⟩
      rw [active] at aside jobs
      have first := Readies.aside filed aside jobs
      cases owner with
      | none => exact first
      | some existing =>
          obtain ⟨jobId, found⟩ := activeDeduplicated_found (congrArg Prod.snd active)
          have named := filed.named (Set.notMem_empty jobId) found
          have known : looked.jobs existing.id = some existing := by rw [jobs, named, found]
          exact first.trans (first.files.filed.coalesce id job known)

/-- A new record enters the queue as a prepared one does. -/
theorem insertJob_eq (keys : Keyspace) (job : Job)
    : (keys.insertJob job).1 = keys.enqueuePreparedJob job (timestampMillis job.scheduledAt) := by
  unfold insertJob enqueuePreparedJob
  cases job.state <;> rfl

/-- A job is added, replaces one, or changes nothing but the keys of its owner. -/
theorem Filed.addJob (filed : keys.InOrder) {job : Job} (enters : entersQueue job.state)
    : Files ∅ keys (keys.addJob job).1 := by
  have unsettled : job.id ∉ (∅ : Set JobId) := Set.notMem_empty _
  unfold Keyspace.addJob
  cases absent : keys.jobs job.id with
  | some existing => exact .refl filed
  | none =>
      have readied := filed.deduplicate job
      dsimp only
      rcases deduplicated : keys.deduplicate job with ⟨ready, outcome⟩
      rw [deduplicated] at readied
      cases outcome with
      | error existing => exact readied.files
      | ok replaced =>
          have same := activeSeries_filing ready job
          have series : Readies ready (ready.activeSeries job).1 :=
            .aside readied.files.filed (.of_filing same)
              (filing_eq same Keyspace.jobs (fun _ => rfl))
          dsimp only
          rcases repeated : ready.activeSeries job with ⟨looked, owner⟩
          rw [repeated] at series
          have both := readied.trans series
          cases owner with
          | some existing => exact both.files
          | none =>
              have taken := both.files.filed.take (both.jobs job.id absent)
              have entered := taken.filed.enqueuePreparedJob unsettled rfl enters
                (timestampMillis job.scheduledAt)
              rw [← insertJob_eq] at entered
              dsimp only
              rcases inserted : looked.insertJob job with ⟨stored, record⟩
              rw [inserted] at entered
              have kept := entered.filed.aside
                ((takeDeduplicationKey_aside stored job job.id replaced).trans
                  (setRepeatKey_aside _ record job.id (timestampMillis job.scheduledAt)))
              exact ((both.files.trans taken).trans entered).trans kept

theorem Filed.addJobs {jobs : List Job} (filed : keys.InOrder)
    (enter : ∀ job ∈ jobs, entersQueue job.state)
    : Files ∅ keys (keys.addJobs jobs).1 := by
  induction jobs generalizing keys with
  | nil => exact .refl filed
  | cons job rest ih =>
      have first := filed.addJob (enter job List.mem_cons_self)
      exact first.trans (ih first.filed (fun later member => enter later (List.mem_cons_of_mem _ member)))

/-- A job that a client makes waits or is delayed. -/
theorem new_enters (queue : QueueName) (name : String) (payload : Value) (options : JobOptions)
    (now : DateTime) (uuid : JobId)
    : entersQueue (Job.new queue name payload options now uuid).state := by
  unfold Job.new
  dsimp only
  split
  · exact .inr (.inl rfl)
  · exact .inl rfl

/-- So does the next job of a series. -/
theorem nextRepeatJob_enters {cron : Cron} {now : DateTime} {uuid : JobId} {next : Job}
    (made : nextRepeatJob cron job now uuid = .ok (some next))
    : entersQueue next.state := by
  unfold nextRepeatJob at made
  split at made
  · cases made
  · dsimp only at made
    split at made
    · cases made
    · split at made
      · cases made
      · cases made
      · split at made
        · cases made
        · cases made
          unfold stateAfterDependencies entersQueue
          dsimp only
          split
          · exact .inr (.inl rfl)
          · exact .inl rfl

end Keyspace

end Lane
