import Lane.Redis.Place

/-! What the functions of the scripts do to the places of jobs: which of them write aside, and how
one job leaves its set or enters another one.
-/

namespace Lane

/-- A member that is not there cannot go. -/
theorem SortedSet.erase_absent {set : SortedSet} {member : String} (absent : set.lookup member = none)
    : set.erase member = set :=
  AList.ext (List.kerase_of_notMem_keys (AList.lookup_eq_none.mp absent))

/-- `ZADD` replaces a score, so nothing has to go before. -/
theorem SortedSet.add_erase (set : SortedSet) (score : Int) (member : String)
    : SortedSet.add (set.erase member) score member = set.add score member := by
  apply AList.ext
  simp only [SortedSet.add, AList.entries_insert]
  have gone := SortedSet.erase_absent (AList.lookup_erase member set)
  exact congrArg (fun set : SortedSet => ⟨member, score⟩ :: set.entries) gone

namespace Keyspace

open Redis

variable {keys middle after : Keyspace} {job parent : Job} {jobId id : JobId} {loose : Set JobId}

-----------------------------------------------------------------------------------------
-- Keys apart from the places
-----------------------------------------------------------------------------------------

/-- The keys that places, leases and stored candidates are read from. -/
def filing (keys : Keyspace) : Keyspace :=
  { keys with
    dependencies := fun _ => ∅
    processed := fun _ => ∅
    ignored := fun _ => ∅
    unsuccessful := fun _ => ∅
    deduplication := fun _ => none
    repeatOwner := fun _ => none
    repeatScheduler := ∅
    repeatMeta := fun _ => none
    metrics := fun _ => {} }

theorem filing_eq (same : after.filing = keys.filing) {α : Type} (read : Keyspace → α)
    (reads : ∀ keys, read keys = read keys.filing)
    : read after = read keys := by
  rw [reads after, same, ← reads keys]

theorem Steady.of_filing (same : after.filing = keys.filing) : Steady keys after := by
  have next := filing_eq same Keyspace.deduplicationNext (fun _ => rfl)
  refine ⟨filing_eq same Keyspace.active (fun _ => rfl), filing_eq same Keyspace.locks (fun _ => rfl),
    filing_eq same Keyspace.stalled (fun _ => rfl), ?_⟩
  intro id parent children stored
  rwa [next] at stored

theorem Aside.of_filing (same : after.filing = keys.filing) : Aside keys after where
  place id := filing_eq same (fun keys => Keyspace.place keys id) (fun _ => rfl)
  sequence := filing_eq same Keyspace.sequence (fun _ => rfl)
  steady := .of_filing same

theorem deleteNext_aside (keys : Keyspace) (deduplicationId : String)
    : Aside keys (keys.deleteNext deduplicationId) := by
  refine ⟨fun _ => rfl, rfl, rfl, rfl, rfl, ?_⟩
  intro id parent children stored
  by_cases own : id = deduplicationId
  · rw [own] at stored
    simp [deleteNext] at stored
  · simpa [deleteNext, own] using stored

theorem setDeduplicationKey_aside (keys : Keyspace) (job : Job) (jobId : JobId)
    : Aside keys (keys.setDeduplicationKey job jobId) := by
  unfold setDeduplicationKey
  split <;> exact .of_filing rfl

theorem releaseDeduplicationKey_aside (keys : Keyspace) (job : Job) (jobId : JobId)
    : Aside keys (keys.releaseDeduplicationKeyOnFinalization job jobId) := by
  unfold releaseDeduplicationKeyOnFinalization
  split
  · exact .refl keys
  · split
    · exact .refl keys
    · exact .of_filing rfl
    · exact .refl keys
    · split_ifs <;> exact .of_filing rfl

theorem storeRepeatScheduler_filing (keys : Keyspace) (job : Job) (jobId : JobId) (score : Int)
    : (keys.storeRepeatScheduler job jobId score).filing = keys.filing := by
  unfold storeRepeatScheduler
  split <;> rfl

theorem setRepeatKey_aside (keys : Keyspace) (job : Job) (jobId : JobId) (score : Int)
    : Aside keys (keys.setRepeatKey job jobId score) := by
  unfold setRepeatKey
  split
  · exact .refl keys
  · exact .of_filing (storeRepeatScheduler_filing _ job jobId score)

theorem releaseRepeatKey_filing (keys : Keyspace) (job : Job) (jobId : JobId)
    : (keys.releaseRepeatKey job jobId).filing = keys.filing := by
  unfold releaseRepeatKey
  split
  · rfl
  · dsimp only
    split_ifs <;> rfl

theorem releaseRepeatKey_aside (keys : Keyspace) (job : Job) (jobId : JobId)
    : Aside keys (keys.releaseRepeatKey job jobId) :=
  .of_filing (releaseRepeatKey_filing keys job jobId)

theorem syncRepeatScheduler_filing (keys : Keyspace) (job : Job) (jobId : JobId) (score : Int)
    : (keys.syncRepeatScheduler job jobId score).filing = keys.filing := by
  unfold syncRepeatScheduler
  split
  · rfl
  · dsimp only
    split_ifs
    · rfl
    · rfl
    · exact storeRepeatScheduler_filing _ job jobId score
    · exact storeRepeatScheduler_filing _ job jobId score

theorem syncRepeatScheduler_aside (keys : Keyspace) (job : Job) (jobId : JobId) (score : Int)
    : Aside keys (keys.syncRepeatScheduler job jobId score) :=
  .of_filing (syncRepeatScheduler_filing keys job jobId score)

theorem isCurrentRepeatSchedulerJob_filing (keys : Keyspace) (job : Job) (jobId : JobId)
    : (keys.isCurrentRepeatSchedulerJob job jobId).1.filing = keys.filing := by
  unfold isCurrentRepeatSchedulerJob
  split
  · rfl
  · dsimp only
    split_ifs <;> rfl

theorem isCurrentRepeatSchedulerJob_aside (keys : Keyspace) (job : Job) (jobId : JobId)
    : Aside keys (keys.isCurrentRepeatSchedulerJob job jobId).1 :=
  .of_filing (isCurrentRepeatSchedulerJob_filing keys job jobId)

theorem recordProcessedChild_aside (keys : Keyspace) (parentId : JobId) (args : CompleteArgs)
    : Aside keys (keys.recordProcessedChild parentId args) := by
  unfold recordProcessedChild
  split_ifs <;> exact .of_filing rfl

theorem recordFailedChild_aside (keys : Keyspace) (parentId childId : JobId) (job : Job)
    (timestamp : Int)
    : Aside keys (keys.recordFailedChild parentId childId job timestamp) := by
  unfold recordFailedChild
  dsimp only
  split_ifs <;> exact .of_filing rfl

theorem parentTurn_aside (keys : Keyspace) (parentId : JobId) (parent : Job) (childId : JobId)
    (job : Job) (timestamp : Int)
    : Aside keys (keys.parentTurn parentId parent childId job timestamp).1 := by
  unfold parentTurn
  dsimp only
  split_ifs
  · exact .of_filing rfl
  · exact .of_filing rfl
  · exact .of_filing rfl
  · exact .of_filing rfl
  · exact .of_filing rfl
  · exact .of_filing rfl
  · split <;> exact .of_filing rfl
  · exact .refl keys

theorem registerNextChild_aside (keys : Keyspace) (job : Job)
    : Aside keys (keys.registerNextChild job) := by
  unfold registerNextChild
  split
  · exact .refl keys
  · split
    · exact .refl keys
    · next found =>
        dsimp only
        split_ifs
        · exact .of_filing rfl
        · refine (Aside.setJob found ?_).trans (.of_filing rfl)
          rfl

-----------------------------------------------------------------------------------------
-- A loose job enters a set
-----------------------------------------------------------------------------------------

theorem setJob_only (keys : Keyspace) (jobId : JobId) (job : Job)
    : OnlyMoves jobId keys (keys.setJob jobId job) := by
  intro id own
  simp [Keyspace.place, setJob, own]

theorem deleteJob_only (keys : Keyspace) (jobId : JobId)
    : OnlyMoves jobId keys (keys.deleteJob jobId) := by
  intro id own
  simp [Keyspace.place, deleteJob, own]

/-- The record of a loose job is written. -/
theorem Filed.setJob (filed : keys.Filed loose) (held : jobId ∈ loose) (job : Job)
    : Files loose keys (keys.setJob jobId job) := by
  refine filed.rewrite held (setJob_only keys jobId job) (.of_eq rfl rfl rfl rfl) ?_ rfl
  exact { filed.unlisted jobId held with }

/-- A loose job is deleted. -/
theorem Filed.deleteJob (filed : keys.Filed (insert jobId loose)) (settled : jobId ∉ loose)
    : Files loose keys (keys.deleteJob jobId) := by
  have held := Set.mem_insert jobId loose
  have rewritten : Files (insert jobId loose) keys (keys.deleteJob jobId) := by
    refine filed.rewrite held (deleteJob_only keys jobId) (.of_eq rfl rfl rfl rfl) ?_ rfl
    exact { filed.unlisted jobId held with }
  refine rewritten.trans (rewritten.filed.drop settled ?_)
  simp [Keyspace.deleteJob]

theorem Drew.turn {drawn : Nat} {tag : JobTag} (drew : keys.Drew id drawn)
    (known : (keys.place id).tag = some tag)
    : ∃ score, tag.turn = some (score, drawn) := by
  obtain ⟨same, score, knownSame, turn⟩ := drew
  rw [known] at knownSame
  cases knownSame
  exact ⟨score, turn⟩

/-- A job that does not wait drew nothing. -/
theorem Drew.not_idle {drawn : Nat} {tag : JobTag} (drew : keys.Drew id drawn)
    (known : (keys.place id).tag = some tag)
    : tag.turn ≠ none := by
  obtain ⟨score, turn⟩ := drew.turn known
  rw [turn]
  exact Option.some_ne_none _

/-- A loose job waits, with the sequence number that it draws. -/
theorem Filed.enqueueWaitingJob (filed : keys.Filed (insert jobId loose)) (settled : jobId ∉ loose)
    (job : Job) (named : job.id = jobId) (waits : job.state = .waiting) {priority : JobPriority}
    (same : priority = job.priority)
    : Files loose keys (keys.enqueueWaitingJob job jobId priority) := by
  have drawn : (keys.enqueueWaitingJob job jobId priority).place jobId
      = { keys.place jobId with
          tag := some (Job.tag { job with enqueuedSeq := keys.sequence + 1 })
          waiting :=
            (Job.tag { job with enqueuedSeq := keys.sequence + 1 }).turn.map Prod.fst } := by
    rw [Job.tag_turn { job with enqueuedSeq := keys.sequence + 1 } waits]
    simp [Keyspace.place, Keyspace.enqueueWaitingJob, Keyspace.setJob, SortedSet.add, waitingScore,
      waitingScoreFor, same]
  refine filed.settle settled ?_ (.of_eq rfl rfl rfl rfl) ?_ ?_ ?_
  · intro id own
    simp [Keyspace.place, Keyspace.enqueueWaitingJob, Keyspace.setJob, SortedSet.add, own,
      AList.lookup_insert_ne own]
  · rw [drawn]
    exact (filed.unlisted jobId (Set.mem_insert jobId loose)).waits named waits
  · intro number drew
    obtain ⟨score, turn⟩ := drew.turn (by rw [drawn])
    rw [Job.tag_turn { job with enqueuedSeq := keys.sequence + 1 } waits] at turn
    cases turn
    exact .inr ⟨Nat.lt_succ_self _, le_rfl⟩
  · exact Nat.le_succ _

/-- A loose job waits before all others of its priority. -/
theorem Filed.pushBackWaitingJob (filed : keys.Filed (insert jobId loose)) (settled : jobId ∉ loose)
    (job : Job) (named : job.id = jobId) (waits : job.state = .waiting)
    : Files loose keys (keys.pushBackWaitingJob job jobId job.priority) := by
  have drawn : (keys.pushBackWaitingJob job jobId job.priority).place jobId
      = { keys.place jobId with
          tag := some (Job.tag { job with enqueuedSeq := 0 })
          waiting := (Job.tag { job with enqueuedSeq := 0 }).turn.map Prod.fst } := by
    rw [Job.tag_turn { job with enqueuedSeq := 0 } waits]
    simp [Keyspace.place, Keyspace.pushBackWaitingJob, Keyspace.setJob, SortedSet.add, waitingScore]
  refine filed.settle settled ?_ (.of_eq rfl rfl rfl rfl) ?_ ?_ le_rfl
  · intro id own
    simp [Keyspace.place, Keyspace.pushBackWaitingJob, Keyspace.setJob, SortedSet.add, own,
      AList.lookup_insert_ne own]
  · rw [drawn]
    exact (filed.unlisted jobId (Set.mem_insert jobId loose)).waits named waits
  · intro number drew
    obtain ⟨score, turn⟩ := drew.turn (by rw [drawn])
    rw [Job.tag_turn { job with enqueuedSeq := 0 } waits] at turn
    cases turn
    exact .inl rfl

/-- A loose job is delayed. -/
theorem Filed.addDelayed (filed : keys.Filed (insert jobId loose)) (settled : jobId ∉ loose)
    (job : Job) (named : job.id = jobId) (delayed : job.state = .delayed) (score : Int)
    : Files loose keys
        { keys.setJob jobId job with delayed := keys.delayed.add score jobId } := by
  have idle : job.tag.turn = none := Job.tag_idle (by rw [delayed]; decide)
  have entered : ({ keys.setJob jobId job with delayed := keys.delayed.add score jobId }
        : Keyspace).place jobId
      = { keys.place jobId with tag := some job.tag, delayed := true } := by
    simp [Keyspace.place, Keyspace.setJob, SortedSet.add]
  refine filed.settle settled ?_ (.of_eq rfl rfl rfl rfl) ?_ ?_ le_rfl
  · intro id own
    simp [Keyspace.place, Keyspace.setJob, SortedSet.add, own, AList.lookup_insert_ne own]
  · rw [entered]
    exact (filed.unlisted jobId (Set.mem_insert jobId loose)).isDelayed named delayed idle
  · intro number drew
    exact absurd idle (drew.not_idle (by rw [entered]))

/-- A loose job waits for its children. -/
theorem Filed.addWaitingChildren (filed : keys.Filed (insert jobId loose)) (settled : jobId ∉ loose)
    (job : Job) (named : job.id = jobId) (waits : job.state = .waitingChildren) (score : Int)
    : Files loose keys
        { keys.setJob jobId job with waitingChildren := keys.waitingChildren.add score jobId } := by
  have idle : job.tag.turn = none := Job.tag_idle (by rw [waits]; decide)
  have entered
      : ({ keys.setJob jobId job with waitingChildren := keys.waitingChildren.add score jobId }
        : Keyspace).place jobId
      = { keys.place jobId with tag := some job.tag, waitingChildren := true } := by
    simp [Keyspace.place, Keyspace.setJob, SortedSet.add]
  refine filed.settle settled ?_ (.of_eq rfl rfl rfl rfl) ?_ ?_ le_rfl
  · intro id own
    simp [Keyspace.place, Keyspace.setJob, SortedSet.add, own, AList.lookup_insert_ne own]
  · rw [entered]
    exact (filed.unlisted jobId (Set.mem_insert jobId loose)).waitsForChildren named waits idle
  · intro number drew
    exact absurd idle (drew.not_idle (by rw [entered]))

/-- A loose job is retained in a terminal set. -/
theorem Filed.addFinished (filed : keys.Filed (insert jobId loose)) (settled : jobId ∉ loose)
    (job : Job) (finish : Finish) (named : job.id = jobId) (ended : job.state = finish.state) (score : Int)
    : Files loose keys
        ((keys.setJob jobId job).setFinished finish ((keys.finished finish).add score jobId)) := by
  have unlisted := filed.unlisted jobId (Set.mem_insert jobId loose)
  have idle : job.tag.turn = none := Job.tag_idle (by rw [ended]; cases finish <;> decide)
  have entered : ((keys.setJob jobId job).setFinished finish
        ((keys.finished finish).add score jobId)).place jobId
      = { keys.place jobId with
          tag := some job.tag
          finished := fun other => other == finish } := by
    have others : ∀ other, ((keys.finished other).lookup jobId).isSome = false :=
      unlisted.finished
    simp only [Keyspace.place, Keyspace.setJob, Keyspace.setFinished, SortedSet.add,
      Function.update_self, Option.map_some, Placement.mk.injEq, true_and]
    funext other
    by_cases own : other = finish
    · simp [own]
    · rw [Function.update_of_ne own, others other]
      exact (beq_eq_false_iff_ne.mpr own).symm
  refine filed.settle settled ?_ (.of_eq rfl rfl rfl rfl) ?_ ?_ le_rfl
  · intro id own
    have same : ∀ other, ((Function.update keys.finished finish
          ((keys.finished finish).add score jobId)) other).lookup id
        = (keys.finished other).lookup id := by
      intro other
      by_cases own' : other = finish
      · rw [own', Function.update_self]
        exact AList.lookup_insert_ne own
      · rw [Function.update_of_ne own']
    simp [Keyspace.place, Keyspace.setJob, Keyspace.setFinished, own, same]
  · rw [entered]
    exact unlisted.finishes finish named ended idle
  · intro number drew
    exact absurd idle (drew.not_idle (by rw [entered]))

-----------------------------------------------------------------------------------------
-- A job leaves its set
-----------------------------------------------------------------------------------------

-- A job that the set does not list leaves no trace.

theorem leaveDelayed_eq_self (absent : keys.delayed.lookup jobId = none)
    : keys.leaveDelayed jobId = keys := by
  rw [Keyspace.leaveDelayed, SortedSet.erase_absent absent]

theorem leaveWaiting_eq_self (absent : keys.waiting.lookup jobId = none)
    : { keys with waiting := keys.waiting.erase jobId } = keys := by
  rw [SortedSet.erase_absent absent]

theorem leaveActive_eq_self (absent : keys.active.lookup jobId = none)
    : keys.leaveActive jobId = keys := by
  rw [leaveActive, SortedSet.erase_absent absent]

theorem setJob_eq_self (found : keys.jobs jobId = some job) : keys.setJob jobId job = keys := by
  rw [Keyspace.setJob, ← found, Function.update_eq_self]

/-- A delayed job leaves the delayed set. -/
theorem Filed.leaveDelayed (filed : keys.Filed loose) (settled : jobId ∉ loose)
    (found : keys.jobs jobId = some job) (delayed : job.state = .delayed)
    : Files (insert jobId loose) keys (keys.leaveDelayed jobId) := by
  have left : (keys.leaveDelayed jobId).place jobId
      = { keys.place jobId with delayed := false } := by
    simp [Keyspace.place, Keyspace.leaveDelayed]
  refine filed.loosen ?_ (.of_eq rfl rfl rfl rfl) ?_ rfl
  · intro id own
    simp [Keyspace.place, Keyspace.leaveDelayed, AList.lookup_erase_ne own]
  · rw [left]
    exact (filed.fits jobId settled).stopsDelay (delayed ▸ place_holds found)

/-- A waiting job leaves the waiting set. -/
theorem Filed.leaveWaiting (filed : keys.Filed loose) (settled : jobId ∉ loose)
    (found : keys.jobs jobId = some job) (waits : job.state = .waiting)
    : Files (insert jobId loose) keys { keys with waiting := keys.waiting.erase jobId } := by
  have left : ({ keys with waiting := keys.waiting.erase jobId } : Keyspace).place jobId
      = { keys.place jobId with waiting := none } := by
    simp [Keyspace.place]
  refine filed.loosen ?_ (.of_eq rfl rfl rfl rfl) ?_ rfl
  · intro id own
    simp [Keyspace.place, AList.lookup_erase_ne own]
  · rw [left]
    exact (filed.fits jobId settled).stopsWaiting (waits ▸ place_holds found)

/-- A job that waits for children leaves their set. -/
theorem Filed.leaveWaitingChildren (filed : keys.Filed loose) (settled : jobId ∉ loose)
    (found : keys.jobs jobId = some job) (waits : job.state = .waitingChildren)
    : Files (insert jobId loose) keys
        { keys with waitingChildren := keys.waitingChildren.erase jobId } := by
  have left : ({ keys with waitingChildren := keys.waitingChildren.erase jobId }
        : Keyspace).place jobId
      = { keys.place jobId with waitingChildren := false } := by
    simp [Keyspace.place]
  refine filed.loosen ?_ (.of_eq rfl rfl rfl rfl) ?_ rfl
  · intro id own
    simp [Keyspace.place, AList.lookup_erase_ne own]
  · rw [left]
    exact (filed.fits jobId settled).leavesChildren (waits ▸ place_holds found)

/-- An aborted script leaves such a job in no set at all. -/
theorem Filed.forgetWaitingChildren (filed : keys.Filed loose) (settled : jobId ∉ loose)
    (found : keys.jobs jobId = some job) (waits : job.state = .waitingChildren)
    : Files loose keys { keys with waitingChildren := keys.waitingChildren.erase jobId } := by
  have left : ({ keys with waitingChildren := keys.waitingChildren.erase jobId }
        : Keyspace).place jobId
      = { keys.place jobId with waitingChildren := false } := by
    simp [Keyspace.place]
  have idle : job.tag.turn = none := Job.tag_idle (by rw [waits]; decide)
  have loosened := filed.leaveWaitingChildren settled found waits
  have known : (({ keys with waitingChildren := keys.waitingChildren.erase jobId }
        : Keyspace).place jobId).tag
      = some job.tag :=
    place_tag found
  refine ⟨?_, loosened.steady⟩
  refine (loosened.filed.settle settled (fun _ _ => rfl) (.refl _) ?_ ?_ le_rfl).filed
  · have before := filed.fits jobId settled
    rw [left]
    refine { before with waitingChildren := ?_ }
    intro listed
    cases listed
  · intro drawn drew
    exact absurd idle (drew.not_idle known)

end Keyspace

end Lane
