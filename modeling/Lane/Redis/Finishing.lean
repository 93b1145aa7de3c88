import Lane.Redis.Moves

/-! The places of jobs through a finalization: retention, the candidate that comes in and the
parent that takes its turn.
-/

namespace Lane

namespace Keyspace

open Redis

variable {keys middle after : Keyspace} {job parent : Job} {jobId parentId id : JobId}
variable {loose : Set JobId} {finish : Finish}

-----------------------------------------------------------------------------------------
-- Retention
-----------------------------------------------------------------------------------------

/-- Only records and one terminal set are written, apart from keys that nothing is filed by. -/
structure Sweeps (finish : Finish) (before after : Keyspace) : Prop where
  filing
    : { after.filing with jobs := fun _ => none, finished := fun _ => ∅ }
      = { before.filing with jobs := fun _ => none, finished := fun _ => ∅ }
  others : ∀ other, other ≠ finish → after.finished other = before.finished other

theorem Sweeps.refl (finish : Finish) (keys : Keyspace) : Sweeps finish keys keys :=
  ⟨rfl, fun _ _ => rfl⟩

theorem Sweeps.trans (first : Sweeps finish keys middle) (second : Sweeps finish middle after)
    : Sweeps finish keys after where
  filing := second.filing.trans first.filing
  others other apart := (second.others other apart).trans (first.others other apart)

theorem Sweeps.read (sweeps : Sweeps finish keys after) {α : Type} (read : Keyspace → α)
    (reads
      : ∀ keys,
          read { keys.filing with jobs := fun _ => none, finished := fun _ => ∅ } = read keys)
    : read after = read keys := by
  rw [← reads after, sweeps.filing, reads]

theorem Sweeps.steady (sweeps : Sweeps finish keys after) : Steady keys after :=
  .of_eq (sweeps.read Keyspace.active (fun _ => rfl)) (sweeps.read Keyspace.locks (fun _ => rfl))
    (sweeps.read Keyspace.stalled (fun _ => rfl))
    (sweeps.read Keyspace.deduplicationNext (fun _ => rfl))

theorem removeFinishedJob_sweeps (keys : Keyspace) (jobId : JobId) (finish : Finish)
    : Sweeps finish keys (keys.removeFinishedJob jobId) := by
  refine ⟨?_, fun other _ => by rw [(removeFinishedJob_keys keys jobId).1]⟩
  unfold removeFinishedJob
  cases keys.jobs jobId with
  | none => rfl
  | some removed =>
      have released := releaseRepeatKey_filing keys removed jobId
      exact congrArg
        (fun keys : Keyspace => { keys with jobs := fun _ => none, finished := fun _ => ∅ }) released

theorem removeFinishedJobs_sweeps (keys : Keyspace) (jobIds : List JobId) (finish : Finish)
    : Sweeps finish keys (keys.removeFinishedJobs jobIds) := by
  induction jobIds generalizing keys with
  | nil => exact .refl finish keys
  | cons jobId rest ih =>
      exact (removeFinishedJob_sweeps keys jobId finish).trans (ih (keys.removeFinishedJob jobId))

theorem setFinished_sweeps (keys : Keyspace) (finish : Finish) (set : SortedSet)
    : Sweeps finish keys (keys.setFinished finish set) :=
  ⟨rfl, fun _ apart => Function.update_of_ne apart _ _⟩

theorem removeFinishedJobsByMaxAge_sweeps (keys : Keyspace) (timestamp : Int)
    (retention : JobRetention) (finish : Finish)
    : Sweeps finish keys (keys.removeFinishedJobsByMaxAge timestamp retention finish) := by
  unfold removeFinishedJobsByMaxAge
  split
  · exact .refl finish keys
  · dsimp only
    split_ifs <;> exact (removeFinishedJobs_sweeps keys _ finish).trans (setFinished_sweeps _ _ _)

theorem removeFinishedJobsByMaxCount_sweeps (keys : Keyspace) (maxCount : Option Nat)
    (finish : Finish)
    : Sweeps finish keys (keys.removeFinishedJobsByMaxCount maxCount finish) := by
  unfold removeFinishedJobsByMaxCount
  split
  · exact .refl finish keys
  · exact .refl finish keys
  · exact (removeFinishedJobs_sweeps keys _ finish).trans (setFinished_sweeps _ _ _)

/-- The ids of a terminal set are removed from it, with their records. -/
theorem Filed.removes (filed : keys.Filed loose) {ids : List JobId}
    (listed : ∀ id ∈ ids, ((keys.finished finish).lookup id).isSome = true)
    (removes : Removes keys finish ids after) (sweeps : Sweeps finish keys after)
    : Files loose keys after := by
  have kept : ∀ id, id ∉ ids → after.place id = keys.place id := by
    intro id kept
    have waiting := sweeps.read Keyspace.waiting (fun _ => rfl)
    have delayed := sweeps.read Keyspace.delayed (fun _ => rfl)
    have waitingChildren := sweeps.read Keyspace.waitingChildren (fun _ => rfl)
    have finished : ∀ other, (after.finished other).lookup id = (keys.finished other).lookup id := by
      intro other
      by_cases own : other = finish
      · rw [own, removes.members, if_neg kept]
      · rw [sweeps.others other own]
    simp only [Keyspace.place, removes.jobs, if_neg kept, waiting, delayed, waitingChildren,
      sweeps.steady.active, finished]
  have settled : ∀ id ∈ ids, id ∉ loose := by
    intro id removed held
    have unlisted := (filed.unlisted id held).finished finish
    rw [show (keys.place id).finished finish = true from listed id removed] at unlisted
    cases unlisted
  have gone : ∀ id ∈ ids, (after.place id).tag = none := by
    intro id removed
    simp [Keyspace.place, removes.jobs, removed]
  have cleared : ∀ id ∈ ids, (after.place id).Unlisted := by
    intro id removed
    have fits := filed.fits id (settled id removed)
    have held : (keys.place id).holds finish.state = true := by
      rw [← fits.finished finish]
      exact listed id removed
    refine ⟨?_, ?_, ?_, ?_, ?_⟩
    · refine .trans ?_ (fits.waiting_eq_none held (by cases finish <;> decide))
      exact congrArg (fun set : SortedSet => set.lookup id) (sweeps.read waiting (fun _ => rfl))
    · rw [sweeps.steady.place_active]
      exact fits.active_eq_false held (by cases finish <;> decide)
    · refine .trans ?_ (fits.delayed_eq_false held (by cases finish <;> decide))
      exact congrArg (fun set : SortedSet => (set.lookup id).isSome)
        (sweeps.read delayed (fun _ => rfl))
    · refine .trans ?_ (fits.waitingChildren_eq_false held (by cases finish <;> decide))
      exact congrArg (fun set : SortedSet => (set.lookup id).isSome)
        (sweeps.read waitingChildren (fun _ => rfl))
    · intro other
      by_cases own : other = finish
      · simp [Keyspace.place, own, removes.members, removed]
      · have before := fits.finished_eq_false held other
          (by cases finish <;> cases other <;> first | decide | exact absurd rfl own)
        simpa [Keyspace.place, sweeps.others other own] using before
  have drew : ∀ id drawn, after.Drew id drawn → keys.Drew id drawn := by
    intro id drawn drew
    by_cases removed : id ∈ ids
    · obtain ⟨tag, score, known, _⟩ := drew
      rw [gone id removed] at known
      cases known
    · exact drew.of_place (kept id removed)
  refine ⟨⟨?_, ?_, ?_, ?_, filed.steady_locked sweeps.steady, filed.steady_stalled sweeps.steady,
    filed.flows.steady sweeps.steady⟩, sweeps.steady⟩
  · intro id settledId
    by_cases removed : id ∈ ids
    · exact (cleared id removed).fits (gone id removed)
    · rw [kept id removed]
      exact filed.fits id settledId
  · intro id held
    by_cases removed : id ∈ ids
    · exact cleared id removed
    · rw [kept id removed]
      exact filed.unlisted id held
  · intro id drawn settledId drewAfter
    rw [sweeps.read Keyspace.sequence (fun _ => rfl)]
    exact filed.drawn id drawn settledId (drew id drawn drewAfter)
  · intro id other drawn settledId settledOther first second
    exact filed.apart id other drawn settledId settledOther (drew id drawn first)
      (drew other drawn second)

theorem Filed.applyFinishedRetention (filed : keys.Filed loose) (timestamp : Int)
    {retention : Option JobRetention} (keeps : retentionCount retention ≠ some 0) (finish : Finish)
    : Files loose keys (keys.applyFinishedRetention timestamp retention finish) := by
  cases retention with
  | none => exact .refl filed
  | some settings =>
      refine filed.removes ?_ (removes_applyFinishedRetention keys timestamp keeps finish) ?_
      · intro id removed
        obtain ⟨score, member⟩ := NewestFirst.mem_of_mem_victims removed
        rw [SortedSet.mem_newest.mp member]
        rfl
      · exact (removeFinishedJobsByMaxAge_sweeps keys timestamp settings finish).trans
          (removeFinishedJobsByMaxCount_sweeps _ _ finish)

/-- A loose record is removed for good. -/
theorem Filed.removeFinishedJob (filed : keys.Filed (insert jobId loose)) (settled : jobId ∉ loose)
    : Files loose keys (keys.removeFinishedJob jobId) := by
  have removes : ∀ {released : Keyspace}, Files (insert jobId loose) keys released
      → Files loose keys ((released.deleteJob jobId).removeDependencyKeys jobId) := by
    intro released kept
    have deleted := kept.filed.deleteJob settled
    exact (kept.trans deleted).trans (deleted.filed.aside (.of_filing rfl))
  unfold Keyspace.removeFinishedJob
  cases keys.jobs jobId with
  | none => exact removes (.refl filed)
  | some removed => exact removes (filed.aside (releaseRepeatKey_aside keys removed jobId))

/-- A finished job is retained, swept at once by its own retention, or removed. -/
theorem Filed.storeFinished (filed : keys.Filed (insert jobId loose)) (settled : jobId ∉ loose)
    (named : job.id = jobId) (ended : job.state = finish.state) (timestamp : Int)
    (retention : Option JobRetention)
    : Files loose keys (keys.storeFinished jobId job timestamp retention finish) := by
  unfold Keyspace.storeFinished
  split
  · exact filed.removeFinishedJob settled
  · next keeps =>
      have added := filed.addFinished settled job finish named ended timestamp
      exact added.trans (added.filed.applyFinishedRetention timestamp keeps finish)

-----------------------------------------------------------------------------------------
-- Candidates
-----------------------------------------------------------------------------------------

/-- The states in which a prepared job enters the queue. -/
def entersQueue (state : JobState) : Prop :=
  state = .waiting ∨ state = .delayed ∨ state = .waitingChildren

theorem Filed.enqueuePreparedJob (filed : keys.Filed (insert jobId loose)) (settled : jobId ∉ loose)
    (named : job.id = jobId) (enters : entersQueue job.state) (scheduledMillis : Int)
    : Files loose keys (keys.enqueuePreparedJob job scheduledMillis) := by
  unfold Keyspace.enqueuePreparedJob
  rw [← named] at filed settled
  rcases enters with state | state | state
  · simp only [state]
    exact filed.enqueueWaitingJob settled job rfl state rfl
  · simp only [state]
    exact filed.addDelayed settled job rfl state scheduledMillis
  · simp only [state]
    exact filed.addWaitingChildren settled job rfl state scheduledMillis

theorem enqueuePreparedJob_jobs (keys : Keyspace) (job : Job) (scheduledMillis : Int)
    (other : id ≠ job.id)
    : (keys.enqueuePreparedJob job scheduledMillis).jobs id = keys.jobs id := by
  unfold enqueuePreparedJob
  split <;> simp [enqueueWaitingJob, setJob, other]

theorem prepared_id (job : Job) (now : DateTime)
    : (Redis.prepareDeduplicatedNextJob job now).1.id = job.id :=
  rfl

theorem prepared_enters (job : Job) (now : DateTime)
    : entersQueue (Redis.prepareDeduplicatedNextJob job now).1.state := by
  unfold Redis.prepareDeduplicatedNextJob
  dsimp only
  split
  · exact .inr (.inl rfl)
  · exact .inl rfl

theorem setDeduplicationKey_jobs (keys : Keyspace) (job : Job) (jobId : JobId)
    : (keys.setDeduplicationKey job jobId).jobs = keys.jobs := by
  unfold setDeduplicationKey
  split <;> rfl

/-- A prepared job takes its deduplication key and enters the queue. -/
theorem Filed.insertPrepared (filed : keys.Filed loose) (absent : keys.jobs jobId = none)
    (settled : jobId ∉ loose) (named : job.id = jobId) (enters : entersQueue job.state)
    (scheduledMillis : Int)
    : Files loose keys
        ((keys.setDeduplicationKey job jobId).enqueuePreparedJob job scheduledMillis) := by
  have owned := filed.aside (setDeduplicationKey_aside keys job jobId)
  have still : (keys.setDeduplicationKey job jobId).jobs jobId = none := by
    rw [setDeduplicationKey_jobs, absent]
  have taken := owned.filed.take still
  exact (owned.trans taken).trans
    (taken.filed.enqueuePreparedJob settled named enters scheduledMillis)

/-- A child of a keep-last flow enters the queue. -/
theorem Filed.enqueueNextFlowChild (filed : keys.Filed loose) {child : Job}
    (absent : keys.jobs child.id = none) (settled : child.id ∉ loose) (parentId : JobId)
    (now : DateTime)
    : Files loose keys (keys.enqueueNextFlowChild parentId child now) := by
  have listed : Files loose keys (keys.addDependency parentId child.id) :=
    filed.aside (.of_filing rfl)
  refine listed.trans (listed.filed.insertPrepared ?_ settled ?_ ?_ _)
  · exact absent
  · exact prepared_id child now
  · exact prepared_enters child now

theorem enqueueNextFlowChild_jobs (keys : Keyspace) (parentId : JobId) (child : Job)
    (now : DateTime) (other : id ≠ child.id)
    : (keys.enqueueNextFlowChild parentId child now).jobs id = keys.jobs id := by
  unfold enqueueNextFlowChild
  refine (enqueuePreparedJob_jobs _ _ _ ?_).trans ?_
  · exact other
  · rw [setDeduplicationKey_jobs]
    rfl

/-- The children of a keep-last flow enter the queue, by induction on them. -/
theorem Filed.enqueueNextFlowChildren {children : List Job} (filed : keys.Filed loose)
    (distinct : (children.map Job.id).Nodup) (absent : ∀ child ∈ children, keys.jobs child.id = none)
    (settled : ∀ child ∈ children, child.id ∉ loose) (parentId : JobId) (now : DateTime)
    : Files loose keys
        (children.foldl (fun keys child => keys.enqueueNextFlowChild parentId child now) keys) := by
  induction children generalizing keys with
  | nil => exact .refl filed
  | cons child rest ih =>
      rw [List.map_cons, List.nodup_cons] at distinct
      have first := filed.enqueueNextFlowChild (absent child List.mem_cons_self)
        (settled child List.mem_cons_self) parentId now
      refine first.trans (ih first.filed distinct.2 ?_ ?_)
      · intro later member
        rw [enqueueNextFlowChild_jobs]
        · exact absent later (List.mem_cons_of_mem _ member)
        · intro same
          exact distinct.1 (same ▸ List.mem_map_of_mem member)
      · exact fun later member => settled later (List.mem_cons_of_mem _ member)

/-- A keep-last flow enters the queue. -/
theorem Filed.insertNextFlow {children : List Job} (filed : keys.Filed loose)
    (distinct : (parent.id :: children.map Job.id).Nodup) (absent : keys.jobs parent.id = none)
    (absentChildren : ∀ child ∈ children, keys.jobs child.id = none)
    (settled : ∀ id, keys.jobs id = none → id ∉ loose) (now : DateTime)
    : Files loose keys (keys.insertNextFlow parent children now) := by
  rw [List.nodup_cons] at distinct
  let prepared :=
    { (Redis.prepareDeduplicatedNextJob parent now).1 with
      parentId := none
      childIds := children.map Job.id
      state :=
        if children.isEmpty then
          (Redis.prepareDeduplicatedNextJob parent now).1.state
        else
          .waitingChildren }
  let scheduledMillis := (Redis.prepareDeduplicatedNextJob parent now).2
  let inserted :=
    (keys.setDeduplicationKey prepared parent.id).enqueuePreparedJob prepared scheduledMillis
  have named : prepared.id = parent.id := prepared_id parent now
  have enters : entersQueue prepared.state := by
    by_cases alone : children.isEmpty = true
    · simp only [prepared, alone, if_true]
      exact prepared_enters parent now
    · exact .inr (.inr (if_neg alone))
  have first : Files loose keys inserted :=
    filed.insertPrepared absent (settled parent.id absent) named enters scheduledMillis
  have cleared : Files loose inserted
      (if children.isEmpty then inserted else inserted.deleteDependencies parent.id) := by
    split
    · exact .refl first.filed
    · exact first.filed.aside (.of_filing rfl)
  have jobs : ∀ child ∈ children,
      (if children.isEmpty then inserted else inserted.deleteDependencies parent.id).jobs child.id
        = none := by
    intro child member
    have same : (if children.isEmpty then inserted else inserted.deleteDependencies parent.id).jobs
        = inserted.jobs := by
      split <;> rfl
    rw [same, enqueuePreparedJob_jobs, setDeduplicationKey_jobs, absentChildren child member]
    intro taken
    refine distinct.1 ?_
    rw [show parent.id = child.id from taken.symm]
    exact List.mem_map_of_mem member
  exact (first.trans cleared).trans
    (cleared.filed.enqueueNextFlowChildren distinct.2 jobs
      (fun child member => settled child.id (absentChildren child member)) parent.id now)

/-- A keep-last job enters the queue. -/
theorem Filed.insertNextJob {nextJob : Job} (filed : keys.Filed loose)
    (absent : keys.jobs nextJob.id = none) (settled : nextJob.id ∉ loose) (ownerJob : Job)
    (repeatNextCount : Option Nat) (now : DateTime)
    : Files loose keys (keys.insertNextJob ownerJob nextJob repeatNextCount now) := by
  let prepared :=
    continueSeries ownerJob (Redis.prepareDeduplicatedNextJob nextJob now).1 repeatNextCount
  let scheduledMillis := (Redis.prepareDeduplicatedNextJob nextJob now).2
  have named : prepared.id = nextJob.id := by cases repeatNextCount <;> rfl
  have enters : entersQueue prepared.state := by
    have same : prepared.state = (Redis.prepareDeduplicatedNextJob nextJob now).1.state := by
      cases repeatNextCount <;> rfl
    rw [same]
    exact prepared_enters nextJob now
  let owned := keys.setDeduplicationKey prepared nextJob.id
  let series :=
    if repeatNextCount.isSome then
      owned.setRepeatKey prepared nextJob.id scheduledMillis
    else
      owned
  have asides : Aside keys series := by
    refine (setDeduplicationKey_aside keys prepared nextJob.id).trans ?_
    simp only [series]
    split
    · exact setRepeatKey_aside owned prepared nextJob.id scheduledMillis
    · exact .refl owned
  have unknown : series.jobs nextJob.id = none := by
    have same : series.jobs = owned.jobs := by
      simp only [series]
      split
      · exact setRepeatKey_jobs owned prepared nextJob.id scheduledMillis
      · rfl
    rw [same, setDeduplicationKey_jobs, absent]
  have first := filed.aside asides
  have taken := first.filed.take unknown
  have entered := taken.filed.enqueuePreparedJob settled named enters scheduledMillis
  exact ((first.trans taken).trans entered).trans
    (entered.filed.aside (registerNextChild_aside _ prepared))

/-- The stored candidate of a finished job comes in; the ids of loose jobs are taken. -/
theorem Filed.enqueueDeduplicatedNext (filed : keys.Filed loose)
    (settled : ∀ id, keys.jobs id = none → id ∉ loose) (ownerJob : Job) (now : DateTime)
    : Files loose keys (keys.enqueueDeduplicatedNext ownerJob now).1 := by
  unfold Keyspace.enqueueDeduplicatedNext
  split
  · exact .refl filed
  · next deduplicationId _ =>
      have skipped := filed.aside (deleteNext_aside keys deduplicationId)
      split
      · exact .refl filed
      · next parent children stored =>
          unfold enqueueDeduplicatedNextFlow
          split
          · exact skipped
          · next parent =>
              split
              · exact skipped
              · next free =>
                  simp only [hasJob, Bool.or_eq_true, List.any_eq_true, not_or, not_exists, not_and,
                    Bool.not_eq_true, Option.isSome_eq_false_iff, Option.isNone_iff_eq_none] at free
                  have distinct := filed.flows deduplicationId parent children stored
                  have inserted := filed.insertNextFlow distinct free.1 free.2 settled now
                  exact inserted.trans (inserted.filed.aside (deleteNext_aside _ deduplicationId))
      · next nextJob _ =>
          split
          · exact skipped
          · next free =>
              split
              · exact skipped
              · next repeatNextCount _ =>
                  have absent : keys.jobs nextJob.id = none := by simpa [hasJob] using free
                  have inserted := filed.insertNextJob absent (settled nextJob.id absent) ownerJob
                    repeatNextCount now
                  exact inserted.trans (inserted.filed.aside (deleteNext_aside _ deduplicationId))

-----------------------------------------------------------------------------------------
-- Flow parents
-----------------------------------------------------------------------------------------

/-- A loose job is stored and counted as finished. -/
theorem Filed.storeCounted (filed : keys.Filed (insert jobId loose)) (settled : jobId ∉ loose)
    (job : Job) (finish : Finish) (named : job.id = jobId) (ended : job.state = finish.state)
    (timestamp : Int) (retention : Option JobRetention)
    : Files loose keys
        ((keys.storeFinished jobId job timestamp retention finish).collectMetrics finish
          timestamp) := by
  have stored := filed.storeFinished settled named ended timestamp retention
  exact stored.trans (stored.filed.aside (.of_filing rfl))

/-- A loose job gives its keys up, and is stored and counted as finished. -/
theorem Filed.finalize (filed : keys.Filed (insert jobId loose)) (settled : jobId ∉ loose)
    (job : Job) (finish : Finish) (named : job.id = jobId) (ended : job.state = finish.state)
    (timestamp : Int) (retention : Option JobRetention)
    : Files loose keys
        ((((keys.releaseDeduplicationKeyOnFinalization job jobId).releaseRepeatKey job
            jobId).storeFinished jobId job timestamp retention finish).collectMetrics finish
          timestamp) := by
  have released := filed.aside (releaseDeduplicationKey_aside keys job jobId)
  have unrepeated := released.filed.aside (releaseRepeatKey_aside _ job jobId)
  exact (released.trans unrepeated).trans
    (unrepeated.filed.storeCounted settled job finish named ended timestamp retention)

/-- A waiting parent fails. -/
theorem Filed.failParent (filed : keys.Filed loose) (settled : parentId ∉ loose)
    (found : keys.jobs parentId = some parent) (waits : parent.state = .waitingChildren)
    (failedChildId : JobId) (failedReason : String) (now : DateTime)
    : Files loose keys (keys.failParent parentId parent failedChildId failedReason now) := by
  have named := filed.named settled found
  have cleared : Files loose keys (keys.deleteDependencies parentId) :=
    filed.aside (.of_filing rfl)
  have left := cleared.filed.leaveWaitingChildren settled found waits
  refine (cleared.trans left).trans ?_
  exact left.filed.finalize settled
    { parent with
      state := .failed
      finishedAt := some now
      workerId := none
      lockToken := none
      leaseExpiresAt := none
      deferredFailure := none
      failedReason := some s!"child job {failedChildId} failed: {failedReason}" }
    .failed named rfl (timestampMillis now) _

/-- A loose parent becomes waiting or delayed. -/
theorem Filed.requeue (filed : keys.Filed (insert parentId loose)) (settled : parentId ∉ loose)
    (parent : Job) (named : parent.id = parentId) (now : DateTime)
    : Files loose keys
        (if timestampMillis parent.scheduledAt ≤ timestampMillis now then
          keys.enqueueWaitingJob { parent with state := .waiting } parentId parent.priority
        else
          { keys.setJob parentId { parent with state := .delayed } with
            delayed := keys.delayed.add (timestampMillis parent.scheduledAt) parentId }) := by
  split
  · exact filed.enqueueWaitingJob settled { parent with state := .waiting } named rfl rfl
  · exact filed.addDelayed settled { parent with state := .delayed } named rfl _

theorem Filed.releaseParent (filed : keys.Filed loose) (settled : parentId ∉ loose)
    (found : keys.jobs parentId = some parent) (waits : parent.state = .waitingChildren)
    (now : DateTime)
    : Files loose keys (keys.releaseParent parentId parent now) := by
  have named := filed.named settled found
  have cleared : Files loose keys (keys.deleteDependencies parentId) :=
    filed.aside (.of_filing rfl)
  have left := cleared.filed.leaveWaitingChildren settled found waits
  refine (cleared.trans left).trans ?_
  exact left.filed.requeue settled
    { parent with
      processedAt := none
      finishedAt := none
      workerId := none
      lockToken := none
      leaseExpiresAt := none
      deferredFailure := none
      failedReason := none }
    named now

theorem Filed.settleParent (filed : keys.Filed loose)
    (settled : ∀ id parent, keys.jobs id = some parent → parent.state = .waitingChildren → id ∉ loose)
    (args : CompleteArgs) (updated : Job)
    : Files loose keys (keys.settleParent args updated) := by
  unfold Keyspace.settleParent
  split
  · exact .refl filed
  · next parentId _ =>
      split
      · exact .refl filed
      · next parent found =>
          have recorded := filed.aside (recordProcessedChild_aside keys parentId args)
          have still : (keys.recordProcessedChild parentId args).jobs parentId = some parent := by
            rw [recordProcessedChild_jobs, found]
          dsimp only
          split_ifs
          · next waits =>
              have apart := settled parentId parent found waits
              split
              · exact recorded.trans (recorded.filed.failParent apart still waits _ _ args.now)
              · exact recorded
              · exact recorded.trans (recorded.filed.releaseParent apart still waits args.now)
          · exact recorded

theorem Filed.releaseAfterFailure (filed : keys.Filed loose) (settled : parentId ∉ loose)
    (found : keys.jobs parentId = some parent) (waits : parent.state = .waitingChildren)
    (childId : JobId) (failed : Job) (now : DateTime)
    : Files loose keys (keys.releaseAfterFailure parentId parent childId failed now) := by
  have named := filed.named settled found
  have left := filed.leaveWaitingChildren settled found waits
  refine left.trans ?_
  exact left.filed.requeue settled
    { unleased parent with
      finishedAt := none
      deferredFailure :=
        if failed.options.failParentOnFailure then
          some s!"child job {childId} failed"
        else
          none }
    named now

theorem Filed.settleFailure (filed : keys.Filed loose)
    (settled : ∀ id parent, keys.jobs id = some parent → parent.state = .waitingChildren → id ∉ loose)
    (childId : JobId) (failed : Job) (now : DateTime)
    : Files loose keys (keys.settleFailure childId failed now) := by
  unfold Keyspace.settleFailure
  split
  · exact .refl filed
  · next parentId _ =>
      split
      · exact .refl filed
      · next parent found =>
          have recorded :=
            filed.aside (recordFailedChild_aside keys parentId childId failed (timestampMillis now))
          have still : (keys.recordFailedChild parentId childId failed
              (timestampMillis now)).jobs parentId = some parent := by
            rw [recordFailedChild_jobs, found]
          dsimp only
          generalize keys.recordFailedChild parentId childId failed (timestampMillis now) = noted
            at recorded still ⊢
          split_ifs
          · next waits =>
              have apart := settled parentId parent found waits
              have turned := recorded.filed.aside
                (parentTurn_aside noted parentId parent childId failed (timestampMillis now))
              have jobs : (noted.parentTurn parentId parent childId failed
                  (timestampMillis now)).1.jobs parentId = some parent := by
                rw [parentTurn_jobs, still]
              split
              · next turn =>
                  rw [turn] at turned
                  exact recorded.trans turned
              · next turn =>
                  rw [turn] at turned jobs
                  exact (recorded.trans turned).trans
                    (turned.filed.releaseAfterFailure apart jobs waits childId failed now)
              · next turn =>
                  rw [turn] at turned jobs
                  exact (recorded.trans turned).trans
                    (turned.filed.failParent apart jobs waits _ _ now)
          · exact recorded

theorem Filed.settleFailedChild (filed : keys.Filed loose)
    (settled : ∀ id parent, keys.jobs id = some parent → parent.state = .waitingChildren → id ∉ loose)
    (childId : JobId) (failed : Job) (now : DateTime)
    : Files loose keys (keys.settleFailedChild childId failed now).1 := by
  unfold Keyspace.settleFailedChild
  split
  · exact .refl filed
  · next parentId _ =>
      split
      · exact .refl filed
      · next parent found =>
          have recorded :=
            filed.aside (recordFailedChild_aside keys parentId childId failed (timestampMillis now))
          have still : (keys.recordFailedChild parentId childId failed
              (timestampMillis now)).jobs parentId = some parent := by
            rw [recordFailedChild_jobs, found]
          dsimp only
          generalize keys.recordFailedChild parentId childId failed (timestampMillis now) = noted
            at recorded still ⊢
          split_ifs
          · next waits =>
              have apart := settled parentId parent found waits
              have turned := recorded.filed.aside
                (parentTurn_aside noted parentId parent childId failed (timestampMillis now))
              have jobs : (noted.parentTurn parentId parent childId failed
                  (timestampMillis now)).1.jobs parentId = some parent := by
                rw [parentTurn_jobs, still]
              rcases turn : noted.parentTurn parentId parent childId failed (timestampMillis now)
                with ⟨decided, outcome⟩
              rw [turn] at turned jobs
              cases outcome with
              | wait => exact recorded.trans turned
              | release =>
                  exact (recorded.trans turned).trans
                    (turned.filed.forgetWaitingChildren apart jobs waits)
              | fail failedChildId reason =>
                  exact (recorded.trans turned).trans
                    (turned.filed.failParent apart jobs waits _ _ now)
          · exact recorded

-----------------------------------------------------------------------------------------
-- Repeat jobs
-----------------------------------------------------------------------------------------

/-- The regular successor of a repeat job enters the queue, unless its id is taken. -/
theorem Filed.enqueueRepeatNext {repeatNext : Job} (filed : keys.Filed loose)
    (settled : ∀ id, keys.jobs id = none → id ∉ loose) (enters : entersQueue repeatNext.state)
    : Files loose keys (keys.enqueueRepeatNext repeatNext) := by
  unfold Keyspace.enqueueRepeatNext
  split
  · exact .refl filed
  · next free =>
      have absent : keys.jobs repeatNext.id = none := by simpa [hasJob] using free
      have apart := settled repeatNext.id absent
      have taken := filed.take absent
      have written := taken.filed.setJob (Set.mem_insert repeatNext.id loose) repeatNext
      have owned := written.filed.aside (setDeduplicationKey_aside _ repeatNext repeatNext.id)
      have repeated := owned.filed.aside
        (setRepeatKey_aside _ repeatNext repeatNext.id (timestampMillis repeatNext.scheduledAt))
      have recorded : (((keys.setJob repeatNext.id repeatNext).setDeduplicationKey repeatNext
          repeatNext.id).setRepeatKey repeatNext repeatNext.id
            (timestampMillis repeatNext.scheduledAt)).jobs repeatNext.id = some repeatNext := by
        rw [setRepeatKey_jobs, setDeduplicationKey_jobs]
        exact Function.update_self ..
      have ready := (taken.trans written).trans (owned.trans repeated)
      dsimp only
      generalize ((keys.setJob repeatNext.id repeatNext).setDeduplicationKey repeatNext
        repeatNext.id).setRepeatKey repeatNext repeatNext.id
          (timestampMillis repeatNext.scheduledAt) = series at ready recorded ⊢
      rcases enters with state | state | state
      · simp only [state]
        exact ready.trans (ready.filed.enqueueWaitingJob apart repeatNext rfl state rfl)
      · simp only [state]
        have entered := ready.filed.addDelayed apart repeatNext rfl state
          (timestampMillis repeatNext.scheduledAt)
        rw [setJob_eq_self recorded] at entered
        exact ready.trans entered
      · simp only [state]
        have entered := ready.filed.addWaitingChildren apart repeatNext rfl state
          (timestampMillis repeatNext.scheduledAt)
        rw [setJob_eq_self recorded] at entered
        exact ready.trans entered

end Keyspace

end Lane
