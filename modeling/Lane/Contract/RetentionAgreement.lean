import Lane.Library.NewestFirst
import Lane.Redis.Ownership
import Mathlib.Data.String.Basic

/-! Retention agreement: the in-memory queue and the Redis scripts remove the same finished jobs
exactly where the age of the retention can be subtracted from the current time.
-/

namespace Lane

open NewestFirst

-----------------------------------------------------------------------------------------
-- The in-memory queue
-----------------------------------------------------------------------------------------

namespace InMemoryJobQueueState

variable {s : InMemoryJobQueueState} {state : JobState} {retention : JobRetention}
  {now : DateTime} {id : JobId} {entry : JobId × DateTime}

instance : Std.Total newestFirst where
  total left right := by
    rcases lt_trichotomy left.2 right.2 with earlier | same | later
    · exact .inr (.inl earlier)
    · rcases le_total left.1 right.1 with less | greater
      · exact .inr (.inr ⟨same.symm, less⟩)
      · exact .inl (.inr ⟨same, greater⟩)
    · exact .inl (.inl later)

instance : IsTrans (JobId × DateTime) newestFirst where
  trans first second third := by
    rintro (later | ⟨same, greater⟩) (next | ⟨nextSame, nextGreater⟩)
    · exact .inl (next.trans later)
    · exact .inl (nextSame ▸ later)
    · exact .inl (same ▸ next)
    · exact .inr ⟨same.trans nextSame, nextGreater.trans greater⟩

/-- The finished jobs of a state, newest first. -/
def newestJobs (s : InMemoryJobQueueState) (state : JobState) : List (JobId × DateTime) :=
  (s.finishedJobs state).insertionSort newestFirst

theorem mem_finishedJobs
    : entry ∈ s.finishedJobs state
      ↔ ∃ job, s.jobs.get entry.1 = some job ∧ job.state = state
          ∧ job.finishedAt = some entry.2 := by
  simp only [finishedJobs, List.mem_filterMap, List.mem_filter, Option.map_eq_some_iff]
  constructor
  · rintro ⟨job, ⟨stored, inState⟩, finishedAt, found, rfl⟩
    exact ⟨job, JobMap.mem_values.mp stored, by simpa using inState, found⟩
  · rintro ⟨job, stored, inState, found⟩
    have own := JobMap.get_id stored
    exact ⟨job, ⟨JobMap.mem_values_of_get stored, by simpa using inState⟩, entry.2, found,
      by rw [own]⟩

theorem mem_newestJobs : entry ∈ s.newestJobs state ↔ entry ∈ s.finishedJobs state :=
  List.mem_insertionSort _

/-- Every finished job is listed once. -/
theorem finishedJobs_ids_nodup (s : InMemoryJobQueueState) (state : JobState)
    : ((s.finishedJobs state).map Prod.fst).Nodup := by
  have within : ∀ jobs : List Job,
      ((jobs.filterMap (fun job => job.finishedAt.map (fun finishedAt => (job.id, finishedAt)))).map
        Prod.fst).Sublist (jobs.map Job.id) := by
    intro jobs
    induction jobs with
    | nil => exact .slnil
    | cons job jobs ih =>
        cases finished : job.finishedAt with
        | none => simpa [finished] using ih.cons job.id
        | some finishedAt => simpa [finished] using ih
  refine List.Nodup.sublist ?_ s.jobs.values_ids_nodup
  exact (within _).trans (List.filter_sublist.map _)

theorem ordered_sort {entries : List (JobId × DateTime)}
    (distinct : (entries.map Prod.fst).Nodup)
    : Ordered (entries.insertionSort newestFirst) := by
  apply ordered_of_weakly
  · apply List.Pairwise.imp _ (List.pairwise_insertionSort newestFirst entries)
    rintro left right (later | ⟨same, greater⟩)
    · exact .inl later
    · exact .inr ⟨same.symm, greater⟩
  · exact ((List.perm_insertionSort newestFirst entries).map _).nodup_iff.mpr distinct

theorem ordered_newestJobs (s : InMemoryJobQueueState) (state : JobState)
    : Ordered (s.newestJobs state) :=
  ordered_sort (s.finishedJobs_ids_nodup state)

/-- Removing records deletes exactly these jobs, by induction on them. -/
theorem get_removeJobRecords (s : InMemoryJobQueueState) (ids : List JobId) (id : JobId)
    : (s.removeJobRecords ids).jobs.get id = if id ∈ ids then none else s.jobs.get id := by
  induction ids generalizing s with
  | nil => rfl
  | cons first rest ih =>
      have one : (s.removeJobRecordLocked first).1.jobs.get id
          = if id = first then none else s.jobs.get id := by
        unfold removeJobRecordLocked
        cases found : s.jobs.get first with
        | none =>
            by_cases own : id = first
            · rw [if_pos own, own, found]
            · rw [if_neg own]
        | some removed =>
            have jobs : ∀ u : InMemoryJobQueueState,
                (u.forgetReleasedDeduplicationOwnerLocked removed).jobs = u.jobs := by
              intro u
              unfold forgetReleasedDeduplicationOwnerLocked
              split <;> rfl
            simp only [jobs, JobMap.get_remove]
      rw [removeJobRecords, List.foldl_cons, ← removeJobRecords, ih, one]
      by_cases later : id ∈ rest
      · simp [later]
      · by_cases own : id = first <;> simp [later, own]

/-- The finished jobs that are left. -/
theorem newestJobs_removeJobRecords (ids : List JobId)
    : (s.removeJobRecords ids).newestJobs state = without ids (s.newestJobs state) := by
  apply Ordered.eq_of_mem_iff (ordered_newestJobs _ _) ((ordered_newestJobs _ _).filter _)
  intro entry
  rw [mem_newestJobs, mem_finishedJobs, List.mem_filter, mem_newestJobs, mem_finishedJobs,
    get_removeJobRecords]
  by_cases removed : entry.1 ∈ ids <;> simp [removed]

/-- What the in-memory queue takes for old. -/
def isOld (retention : JobRetention) (now : DateTime) (time : DateTime) : Bool :=
  retention.age.any (fun age => time ≤ subtractDuration now age)

theorem expiredJobIds_eq (s : InMemoryJobQueueState) (state : JobState) {age : Duration}
    (limited : retention.age = some age)
    : s.expiredJobIds state retention age now
      = aged (isOld retention now) (retention.limit.getD 1000) (s.newestJobs state) := by
  have sorted : ((s.finishedJobs state).filter
        (fun entry => decide (entry.2 ≤ subtractDuration now age))).insertionSort newestFirst
      = (s.newestJobs state).filter (fun entry => isOld retention now entry.2) := by
    apply Ordered.eq_of_mem_iff
    · apply ordered_sort
      exact (List.filter_sublist.map _).nodup (s.finishedJobs_ids_nodup state)
    · exact (ordered_newestJobs s state).filter _
    · intro entry
      rw [List.mem_insertionSort, List.mem_filter, List.mem_filter, mem_newestJobs, isOld, limited]
      simp
  rw [expiredJobIds, aged, ← List.map_take]
  simp only [sorted]

/-- The second sweep of the retention. -/
def removeSurplus (s : InMemoryJobQueueState) (state : JobState) (count : Option Nat)
    : InMemoryJobQueueState :=
  match count with
  | none => s
  | some count => s.removeJobRecords (s.surplusJobIds state count)

/-- After the old jobs the second sweep removes those beyond the count. -/
theorem get_removeSurplus (s : InMemoryJobQueueState) (state : JobState) (count : Option Nat)
    (old : List JobId) (id : JobId)
    : ((s.removeJobRecords old).removeSurplus state count).jobs.get id
      = if id ∈ old ++ surplus count (without old (s.newestJobs state)) then none
        else s.jobs.get id := by
  cases count with
  | none => simp [removeSurplus, surplus, get_removeJobRecords]
  | some count =>
      have second : (s.removeJobRecords old).surplusJobIds state count
          = surplus (some count) (without old (s.newestJobs state)) := by
        rw [surplusJobIds, ← newestJobs, newestJobs_removeJobRecords, surplus, List.map_drop]
      rw [removeSurplus, second, get_removeJobRecords, get_removeJobRecords]
      by_cases late : id ∈ surplus (some count) (without old (s.newestJobs state)) <;> simp [late]

/-- `apply_finished_retention_locked` removes the victims of the newest jobs. -/
theorem get_applyFinishedRetentionLocked (s : InMemoryJobQueueState) (state : JobState)
    (retention : JobRetention) (now : DateTime) (id : JobId)
    : (s.applyFinishedRetentionLocked state retention now).jobs.get id
      = if id ∈ victims (isOld retention now) (retention.limit.getD 1000) retention.count
            (s.newestJobs state) then none
        else s.jobs.get id := by
  rw [victims, ← get_removeSurplus]
  cases limited : retention.age with
  | none =>
      have young : aged (isOld retention now) (retention.limit.getD 1000) (s.newestJobs state)
          = [] := by
        simp [aged, isOld, limited]
      rw [young, applyFinishedRetentionLocked]
      simp only [limited]
      rfl
  | some age =>
      rw [← expiredJobIds_eq s state limited, applyFinishedRetentionLocked]
      simp only [limited]
      rfl

end InMemoryJobQueueState

-----------------------------------------------------------------------------------------
-- Sorted sets
-----------------------------------------------------------------------------------------

namespace SortedSet

variable {set : SortedSet} {id : JobId} {score : Int} {entry : JobId × Int}

/-- The members with their scores, highest first. -/
def newest (set : SortedSet) : List (JobId × Int) := set.ranked.reverse

theorem mem_ranked : entry ∈ set.ranked ↔ set.lookup entry.1 = some entry.2 := by
  rw [ranked, List.mem_mergeSort, List.mem_map]
  constructor
  · rintro ⟨stored, member, rfl⟩
    exact AList.mem_lookup_iff.mpr member
  · intro found
    exact ⟨⟨entry.1, entry.2⟩, AList.mem_lookup_iff.mp found, rfl⟩

theorem mem_newest : entry ∈ set.newest ↔ set.lookup entry.1 = some entry.2 := by
  rw [newest, List.mem_reverse, mem_ranked]

theorem ranked_ids_nodup (set : SortedSet) : (set.ranked.map Prod.fst).Nodup := by
  have perm : (set.ranked.map Prod.fst).Perm set.keys := by
    refine ((List.mergeSort_perm _ _).map Prod.fst).trans ?_
    rw [List.map_map]
    exact .refl _
  exact perm.nodup_iff.mpr set.keys_nodup

theorem ordered_newest (set : SortedSet) : Ordered set.newest := by
  apply ordered_of_weakly
  · rw [newest, List.pairwise_reverse]
    have sorted : set.ranked.Pairwise (fun left right => precedes left right = true) := by
      apply List.pairwise_mergeSort
      · intro first second third firstSecond secondThird
        simp only [precedes, Bool.or_eq_true, Bool.and_eq_true, decide_eq_true_eq,
          beq_iff_eq] at *
        rcases firstSecond with less | ⟨same, before⟩
        · rcases secondThird with later | ⟨same, _⟩
          · exact .inl (less.trans later)
          · exact .inl (same ▸ less)
        · rcases secondThird with later | ⟨again, after⟩
          · exact .inl (same ▸ later)
          · exact .inr ⟨same.trans again, before.trans after⟩
      · intro left right
        simp only [precedes, Bool.or_eq_true, Bool.and_eq_true, decide_eq_true_eq, beq_iff_eq]
        rcases lt_trichotomy left.2 right.2 with less | same | greater
        · exact .inl (.inl less)
        · rcases le_total left.1 right.1 with before | after
          · exact .inl (.inr ⟨same, before⟩)
          · exact .inr (.inr ⟨same.symm, after⟩)
        · exact .inr (.inl greater)
    apply List.Pairwise.imp _ sorted
    intro left right precedes
    simpa [SortedSet.precedes] using precedes
  · rw [newest, List.map_reverse, List.nodup_reverse]
    exact set.ranked_ids_nodup

theorem lookup_removeAll (set : SortedSet) (members : List String) (id : String)
    : (set.removeAll members).lookup id = if id ∈ members then none else set.lookup id := by
  induction members generalizing set with
  | nil => rfl
  | cons first rest ih =>
      rw [removeAll, List.foldl_cons, ← removeAll, ih]
      by_cases later : id ∈ rest
      · simp [later]
      · by_cases own : id = first
        · rw [own]
          simp
        · simp [later, own, AList.lookup_erase_ne own]

/-- The members that are left. -/
theorem newest_eq_without {after : SortedSet} {ids : List JobId}
    (left : ∀ id, after.lookup id = if id ∈ ids then none else set.lookup id)
    : after.newest = without ids set.newest := by
  apply Ordered.eq_of_mem_iff (ordered_newest _) ((ordered_newest _).filter _)
  intro entry
  rw [mem_newest, List.mem_filter, mem_newest, left]
  by_cases removed : entry.1 ∈ ids <;> simp [removed]

/-- `ZREVRANGEBYSCORE` with a limit finds the old members. -/
theorem revRangeByScore_eq (set : SortedSet) (max : Int) (limit : Nat)
    : set.revRangeByScore max limit = aged (fun score => decide (score ≤ max)) limit set.newest := by
  rw [revRangeByScore, aged, newest, List.filter_reverse, List.map_take]

/-- `ZREVRANGE` finds the members beyond the highest ones. -/
theorem revRange_eq (set : SortedSet) (start : Nat)
    : set.revRange start = surplus (some start) set.newest := by
  rw [revRange, surplus, newest, List.map_drop]

/-- `ZREMRANGEBYRANK` removes the same. -/
theorem lookup_removeRangeByRank (set : SortedSet) (kept : Nat) (id : JobId)
    : (set.removeRangeByRank kept).lookup id
      = if id ∈ surplus (some kept) set.newest then none else set.lookup id := by
  have card : set.card = (set.ranked.map Prod.fst).length := by
    rw [card, ranked, List.length_map, List.length_mergeSort, List.length_map]
  have same : ∀ id, id ∈ (set.ranked.map Prod.fst).take (set.card - kept)
      ↔ id ∈ surplus (some kept) set.newest := by
    intro id
    rw [surplus, newest, List.map_drop, List.map_reverse, List.drop_reverse, List.mem_reverse, card]
  rw [removeRangeByRank, lookup_removeAll]
  exact if_congr (same id) rfl rfl

/-- `ZREMRANGEBYSCORE` removes the old members when the limit has not cut them. -/
theorem lookup_removeRangeByScore {max : Int} {limit : Nat}
    (short : (set.revRangeByScore max limit).length < limit) (id : JobId)
    : (set.removeRangeByScore max).lookup id
      = if id ∈ set.revRangeByScore max limit then none else set.lookup id := by
  have same : ∀ id, id ∈ (set.ranked.filter (fun entry => entry.2 ≤ max)).map Prod.fst
      ↔ id ∈ set.revRangeByScore max limit := by
    intro id
    rw [revRangeByScore, List.take_of_length_le, List.map_reverse, List.mem_reverse]
    rw [revRangeByScore, List.length_take] at short
    omega
  rw [removeRangeByScore, lookup_removeAll]
  exact if_congr (same id) rfl rfl

end SortedSet

-----------------------------------------------------------------------------------------
-- The Redis scripts
-----------------------------------------------------------------------------------------

namespace Keyspace

open Redis

variable {keys : Keyspace} {timestamp : Int} {retention : JobRetention} {finish : Finish}

theorem removeFinishedJob_keys (keys : Keyspace) (jobId : JobId)
    : (keys.removeFinishedJob jobId).finished = keys.finished
      ∧ (keys.removeFinishedJob jobId).jobs = Function.update keys.jobs jobId none := by
  have released : ∀ job : Job, (keys.releaseRepeatKey job jobId).finished = keys.finished := by
    intro job
    unfold releaseRepeatKey
    split
    · rfl
    · dsimp only
      split_ifs <;> rfl
  unfold removeFinishedJob
  cases keys.jobs jobId with
  | none => exact ⟨rfl, rfl⟩
  | some job =>
      refine ⟨released job, ?_⟩
      simp only [removeDependencyKeys, deleteJob, releaseRepeatKey_jobs]

/-- Removing finished jobs deletes exactly their records, by induction on them. -/
theorem removeFinishedJobs_keys (keys : Keyspace) (jobIds : List JobId)
    : (keys.removeFinishedJobs jobIds).finished = keys.finished
      ∧ ∀ id, (keys.removeFinishedJobs jobIds).jobs id
          = if id ∈ jobIds then none else keys.jobs id := by
  induction jobIds generalizing keys with
  | nil => exact ⟨rfl, fun _ => rfl⟩
  | cons first rest ih =>
      obtain ⟨finished, jobs⟩ := removeFinishedJob_keys keys first
      obtain ⟨restFinished, restJobs⟩ := ih (keys.removeFinishedJob first)
      refine ⟨restFinished.trans finished, fun id => (restJobs id).trans ?_⟩
      rw [jobs]
      by_cases later : id ∈ rest
      · simp [later]
      · by_cases own : id = first
        · simp [own]
        · simp [later, own]

/-- The ids are removed: from the sorted set of the state and from the job records. -/
structure Removes (keys : Keyspace) (finish : Finish) (ids : List JobId) (after : Keyspace)
    : Prop where
  members
    : ∀ id, (after.finished finish).lookup id
        = if id ∈ ids then none else (keys.finished finish).lookup id
  jobs : ∀ id, after.jobs id = if id ∈ ids then none else keys.jobs id

theorem Removes.append {first second : List JobId} {middle after : Keyspace}
    (removes : Removes keys finish first middle) (next : Removes middle finish second after)
    : Removes keys finish (first ++ second) after := by
  constructor
  · intro id
    rw [next.members, removes.members]
    by_cases late : id ∈ second <;> simp [late]
  · intro id
    rw [next.jobs, removes.jobs]
    by_cases late : id ∈ second <;> simp [late]

/-- What the scripts take for old. -/
def isOld (retention : JobRetention) (timestamp : Int) (score : Int) : Bool :=
  (retentionAgeMillis retention).any (fun (maxAge : Nat) => score ≤ timestamp - maxAge)

/-- The first sweep removes the old members, whichever of the two commands it uses. -/
theorem removes_removeFinishedJobsByMaxAge (keys : Keyspace) (timestamp : Int)
    (retention : JobRetention) (finish : Finish)
    : Removes keys finish
        (aged (isOld retention timestamp) (retentionLimit retention) (keys.finished finish).newest)
        (keys.removeFinishedJobsByMaxAge timestamp retention finish) := by
  unfold removeFinishedJobsByMaxAge
  cases limited : retentionAgeMillis retention with
  | none =>
      have young : aged (isOld retention timestamp) (retentionLimit retention)
          (keys.finished finish).newest = [] := by
        simp [aged, isOld, limited]
      rw [young]
      exact ⟨fun _ => rfl, fun _ => rfl⟩
  | some maxAge =>
      have old : isOld retention timestamp
          = fun score => decide (score ≤ timestamp - maxAge) := by
        funext score
        rw [isOld, limited]
        rfl
      rw [old, ← SortedSet.revRangeByScore_eq]
      obtain ⟨finished, jobs⟩ := removeFinishedJobs_keys keys
        ((keys.finished finish).revRangeByScore (timestamp - maxAge) (retentionLimit retention))
      simp only [finished]
      split
      · next short =>
          refine ⟨fun id => ?_, jobs⟩
          simp only [setFinished, Function.update_self]
          exact SortedSet.lookup_removeRangeByScore short id
      · refine ⟨fun id => ?_, jobs⟩
        simp only [setFinished, Function.update_self]
        exact SortedSet.lookup_removeAll _ _ id

/-- The second sweep removes the members beyond the count. -/
theorem removes_removeFinishedJobsByMaxCount (keys : Keyspace) {count : Option Nat}
    (keeps : count ≠ some 0) (finish : Finish)
    : Removes keys finish (surplus count (keys.finished finish).newest)
        (keys.removeFinishedJobsByMaxCount count finish) := by
  cases count with
  | none => exact ⟨fun _ => rfl, fun _ => rfl⟩
  | some count =>
      obtain ⟨count, rfl⟩ := Nat.exists_eq_succ_of_ne_zero (fun zero => keeps (congrArg some zero))
      rw [← SortedSet.revRange_eq]
      obtain ⟨finished, jobs⟩ := removeFinishedJobs_keys keys
        ((keys.finished finish).revRange (count + 1))
      refine ⟨fun id => ?_, jobs⟩
      simp only [removeFinishedJobsByMaxCount, finished, setFinished, Function.update_self]
      rw [SortedSet.revRange_eq]
      exact SortedSet.lookup_removeRangeByRank _ _ id

/-- `apply_finished_retention` removes the victims of the newest members. -/
theorem removes_applyFinishedRetention (keys : Keyspace) (timestamp : Int)
    {retention : JobRetention} (keeps : retention.count ≠ some 0) (finish : Finish)
    : Removes keys finish
        (victims (isOld retention timestamp) (retentionLimit retention) retention.count
          (keys.finished finish).newest)
        (keys.applyFinishedRetention timestamp (some retention) finish) := by
  have first := removes_removeFinishedJobsByMaxAge keys timestamp retention finish
  rw [victims, ← SortedSet.newest_eq_without first.members]
  exact first.append (removes_removeFinishedJobsByMaxCount _ keeps finish)

end Keyspace

-----------------------------------------------------------------------------------------
-- Both backends
-----------------------------------------------------------------------------------------

/-- Both backends hold the same finished jobs, whose times are whole milliseconds up to now. -/
structure SameFinished (s : InMemoryJobQueueState) (state : JobState) (keys : Keyspace)
    (finish : Finish) (now : DateTime)
    : Prop where
  members
    : ∀ id score, (keys.finished finish).lookup id = some score
      ↔ (id, Redis.millisToIso score) ∈ s.finishedJobs state
  whole : ∀ entry ∈ s.finishedJobs state, ∃ score, entry.2 = Redis.millisToIso score
  times : ∀ entry ∈ s.finishedJobs state, minDateTime ≤ entry.2 ∧ entry.2 ≤ now

/-- The jobs that a retention removes: the newest up to its limit among those that finished by
`now - age`, and of the rest all but the `count` newest.
-/
def retentionVictims (s : InMemoryJobQueueState) (state : JobState) (retention : JobRetention)
    (now : DateTime)
    : List JobId :=
  victims (fun time => retention.age.any (fun (age : Duration) => time ≤ now - age))
    (retention.limit.getD 1000) retention.count (s.newestJobs state)

/-- The age can be subtracted from the time. -/
def HasCutoff (retention : JobRetention) (now : DateTime) : Prop :=
  ∀ age ∈ retention.age, age ≤ maxTimeDelta ∧ minDateTime ≤ now - age

/-- The job was stored before and is not any more. -/
def RemovedLocally (before after : InMemoryJobQueueState) (id : JobId) : Prop :=
  before.jobs.get id ≠ none ∧ after.jobs.get id = none

section Agreement

variable {s : InMemoryJobQueueState} {state : JobState} {keys : Keyspace} {finish : Finish}
  {retention : JobRetention} {now : DateTime} {field : String} {id : JobId}

theorem JobRetention.validate_ok (valid : retention.validate field = .ok ())
    : retention.age ≠ some 0 ∧ retention.limit ≠ some 0 := by
  rw [validate] at valid
  by_cases given : retention.age = none ∧ retention.count = none
  · rw [if_pos given] at valid
    cases valid
  · rw [if_neg given] at valid
    by_cases noAge : retention.age = some 0
    · rw [if_pos noAge] at valid
      cases valid
    · rw [if_neg noAge] at valid
      by_cases noLimit : retention.limit = some 0
      · rw [if_pos noLimit] at valid
        cases valid
      · exact ⟨noAge, noLimit⟩

/-- The lists of the two backends differ in the unit of the times only. -/
theorem SameFinished.newestJobs_eq (same : SameFinished s state keys finish now)
    : s.newestJobs state
      = (keys.finished finish).newest.map (fun entry =>
          (entry.1, Redis.millisToIso entry.2)) := by
  apply Ordered.eq_of_mem_iff (s.ordered_newestJobs state)
  · apply (SortedSet.ordered_newest _).map
    exact fun left right less => Int.mul_lt_mul_of_pos_right less (by decide)
  · intro entry
    rw [InMemoryJobQueueState.mem_newestJobs, List.mem_map]
    constructor
    · intro member
      obtain ⟨score, time⟩ := same.whole entry member
      have own : entry = (entry.1, Redis.millisToIso score) := Prod.ext rfl time
      rw [own] at member
      exact ⟨(entry.1, score), SortedSet.mem_newest.mpr ((same.members _ _).mpr member),
        own.symm⟩
    · rintro ⟨stored, member, rfl⟩
      exact (same.members _ _).mp (SortedSet.mem_newest.mp member)

/-- Whole milliseconds are compared alike before and after the division. -/
theorem atMost_iff (time score : Int) (millis : Nat)
    : score ≤ time / 1000000 - millis
      ↔ score * (nanosPerMilli : Int) ≤ time - (nanosPerMilli : Int) * millis := by
  have units : (nanosPerMilli : Int) = 1000000 := rfl
  rw [units]
  omega

/-- The scripts remove exactly the victims. -/
theorem SameFinished.removes (same : SameFinished s state keys finish now)
    (valid : retention.validate field = .ok ())
    (wholeAge : ∀ age ∈ retention.age, nanosPerMilli ∣ age) (keeps : retention.count ≠ some 0)
    : Keyspace.Removes keys finish (retentionVictims s state retention now)
        (keys.applyFinishedRetention (timestampMillis now) (some retention) finish) := by
  obtain ⟨positive, limited⟩ := JobRetention.validate_ok valid
  have limit : Redis.retentionLimit retention = retention.limit.getD 1000 := by
    rw [Redis.retentionLimit]
    cases given : retention.limit with
    | none => rfl
    | some limit =>
        have some : limit ≠ 0 := fun zero => limited (given.trans (congrArg _ zero))
        simp [some]
  have old : ∀ score : Int, Keyspace.isOld retention (timestampMillis now) score
      = retention.age.any (fun (age : Duration) => Redis.millisToIso score ≤ now - age) := by
    intro score
    rw [Keyspace.isOld, Redis.retentionAgeMillis, Redis.durationMillis]
    cases given : retention.age with
    | none => rfl
    | some age =>
        obtain ⟨millis, rfl⟩ := wholeAge age given
        have some : 0 < millis := by
          refine Nat.pos_of_ne_zero (fun zero => positive ?_)
          rw [given, zero, Nat.mul_zero]
        have quotient : nanosPerMilli * millis / nanosPerMilli = millis :=
          Nat.mul_div_cancel_left _ (by decide)
        have floor : timestampMillis now = now / (1000000 : Int) :=
          Int.fdiv_eq_ediv_of_nonneg _ (by decide)
        simp only [Option.map_some, quotient, Option.filter_some, some, decide_true, if_true,
          Option.any_some, floor, decide_eq_decide, Redis.millisToIso, Nat.cast_mul]
        exact atMost_iff now score millis
  have removes := keys.removes_applyFinishedRetention (timestampMillis now) keeps finish
  rw [retentionVictims, same.newestJobs_eq, victims_map Redis.millisToIso, ← limit]
  simp only [← old]
  exact removes

/-- The in-memory queue removes the victims of what it takes for old. -/
theorem removedLocally_iff
    : RemovedLocally s (s.applyFinishedRetentionLocked state retention now) id
      ↔ id ∈ victims (InMemoryJobQueueState.isOld retention now) (retention.limit.getD 1000)
          retention.count (s.newestJobs state) := by
  rw [RemovedLocally, s.get_applyFinishedRetentionLocked]
  constructor
  · rintro ⟨stored, gone⟩
    by_contra kept
    rw [if_neg kept] at gone
    exact stored gone
  · intro victim
    obtain ⟨time, member⟩ := mem_of_mem_victims victim
    obtain ⟨job, stored, _⟩ := InMemoryJobQueueState.mem_finishedJobs.mp
      (InMemoryJobQueueState.mem_newestJobs.mp member)
    have found : s.jobs.get id = some job := stored
    refine ⟨?_, if_pos victim⟩
    rw [found]
    exact Option.some_ne_none job

/-- An age that can be subtracted is. -/
theorem HasCutoff.isOld_eq (cutoff : HasCutoff retention now)
    : InMemoryJobQueueState.isOld retention now
      = fun time => retention.age.any (fun (age : Duration) => time ≤ now - age) := by
  funext time
  rw [InMemoryJobQueueState.isOld]
  cases given : retention.age with
  | none => rfl
  | some age =>
      obtain ⟨short, early⟩ := cutoff age given
      rw [Option.any_some, Option.any_some, subtractDuration, durationFromStd, if_pos short]
      simp only [checkedSubSigned, if_pos early, Option.getD_some]

/-- For any other age the current time is the cutoff, and no time is as old as the age. -/
theorem exists_age_of_not_hasCutoff (representable : now ≤ maxDateTime)
    (noCutoff : ¬ HasCutoff retention now)
    : ∃ age, retention.age = some age ∧ subtractDuration now age = now
        ∧ now - age < minDateTime := by
  simp only [HasCutoff, not_forall] at noCutoff
  obtain ⟨age, given, unfit⟩ := noCutoff
  refine ⟨age, given, ?_⟩
  rw [subtractDuration, durationFromStd]
  by_cases short : age ≤ maxTimeDelta
  · have early : ¬ minDateTime ≤ now - age := fun early => unfit ⟨short, early⟩
    rw [if_pos short]
    simp only [checkedSubSigned, if_neg early, Option.getD_none]
    exact ⟨trivial, not_le.mp early⟩
  · rw [if_neg short]
    refine ⟨rfl, ?_⟩
    have span : maxDateTime - (maxTimeDelta : Int) < minDateTime := by decide
    have long : (maxTimeDelta : Int) < age := by exact_mod_cast not_le.mp short
    calc now - (age : Int) ≤ maxDateTime - (age : Int) := Int.sub_le_sub_right representable _
      _ ≤ maxDateTime - (maxTimeDelta : Int) := Int.sub_le_sub_left long.le _
      _ < minDateTime := span

/-- The in-memory queue removes exactly the victims where the age can be subtracted, and
otherwise only if there is nothing to remove.
-/
theorem removedLocally_victims_iff (valid : retention.validate field = .ok ())
    (keeps : retention.count ≠ some 0) (representable : now ≤ maxDateTime)
    (times : ∀ entry ∈ s.finishedJobs state, minDateTime ≤ entry.2 ∧ entry.2 ≤ now)
    : (∀ id, RemovedLocally s (s.applyFinishedRetentionLocked state retention now) id
        ↔ id ∈ retentionVictims s state retention now)
      ↔ s.finishedJobs state = [] ∨ HasCutoff retention now := by
  simp only [removedLocally_iff, retentionVictims]
  have positive : 0 < retention.limit.getD 1000 := by
    have limited := (JobRetention.validate_ok valid).2
    cases given : retention.limit with
    | none => decide
    | some limit => exact Nat.pos_of_ne_zero (fun zero => limited (given.trans (congrArg _ zero)))
  constructor
  · intro agree
    by_contra neither
    obtain ⟨some, noCutoff⟩ := not_or.mp neither
    obtain ⟨age, given, falls, before⟩ := exists_age_of_not_hasCutoff representable noCutoff
    -- the newest job is removed although none is that old
    cases newest : s.newestJobs state with
    | nil =>
        apply some
        apply List.eq_nil_iff_forall_not_mem.mpr
        intro entry member
        rw [← InMemoryJobQueueState.mem_newestJobs, newest] at member
        cases member
    | cons entry rest =>
        have member : ∀ other ∈ entry :: rest, other ∈ s.finishedJobs state := by
          intro other member
          rw [← newest] at member
          exact InMemoryJobQueueState.mem_newestJobs.mp member
        have distinct : ((entry :: rest).map Prod.fst).Nodup := by
          rw [← newest]
          exact ((List.perm_insertionSort _ _).map _).nodup_iff.mpr
            (s.finishedJobs_ids_nodup state)
        rw [newest] at agree
        refine head_not_mem_victims distinct ?_ keeps ((agree entry.1).mp ?_)
        · intro other listed
          have late := (times other (member other listed)).1
          simp only [given, Option.any_some, decide_eq_false_iff_not, not_le]
          exact lt_of_lt_of_le before late
        · apply head_mem_victims _ positive
          have past := (times entry (member entry List.mem_cons_self)).2
          simpa [InMemoryJobQueueState.isOld, given, falls] using past
  · rintro (empty | cutoff) id
    · have none : s.newestJobs state = [] := by
        rw [InMemoryJobQueueState.newestJobs, empty, List.insertionSort_nil]
      have nobody {old : DateTime → Bool}
          : id ∉ victims old (retention.limit.getD 1000) retention.count [] := by
        intro member
        obtain ⟨_, listed⟩ := mem_of_mem_victims member
        cases listed
      rw [none]
      exact iff_of_false nobody nobody
    · rw [cutoff.isOld_eq]

/-- Both backends hold the same finished jobs with times in whole milliseconds up to now: the
scripts remove exactly the newest of those that have reached the age, up to the limit, and of the
rest all but the count; the in-memory queue removes the same exactly when there are none or the
age can be subtracted from now.
-/
theorem retention_agrees (same : SameFinished s state keys finish now)
    (valid : retention.validate field = .ok ())
    (wholeAge : ∀ age ∈ retention.age, nanosPerMilli ∣ age) (keeps : retention.count ≠ some 0)
    (representable : now ≤ maxDateTime)
    : Keyspace.Removes keys finish (retentionVictims s state retention now)
        (keys.applyFinishedRetention (timestampMillis now) (some retention) finish)
      ∧ ((∀ id, RemovedLocally s (s.applyFinishedRetentionLocked state retention now) id
            ↔ id ∈ retentionVictims s state retention now)
        ↔ s.finishedJobs state = [] ∨ HasCutoff retention now) :=
  ⟨same.removes valid wholeAge keeps,
    removedLocally_victims_iff valid keeps representable same.times⟩

end Agreement

section Example

/-- A job that was completed at the epoch. -/
def completedJob : Job :=
  { Job.new "queue" "report" .null {} 0 "a" with state := .completed, finishedAt := some 0 }

/-- The in-memory queue with that job. -/
def localWithCompleted : InMemoryJobQueueState := ({} : InMemoryJobQueueState).setJob completedJob

/-- The Redis queue with that job. -/
def redisWithCompleted : Keyspace :=
  (({} : Keyspace).setJob "a" completedJob).setFinished .completed
    (SortedSet.add (∅ : SortedSet) 0 "a")

theorem sameFinished_completed {now : DateTime} (past : 0 ≤ now)
    : SameFinished localWithCompleted .completed redisWithCompleted .completed now := by
  have jobs : localWithCompleted.finishedJobs .completed = [("a", 0)] := by decide
  refine ⟨?_, ?_, ?_⟩
  · intro id score
    have members : (redisWithCompleted.finished .completed).lookup id
        = if id = "a" then some 0 else none := by
      by_cases own : id = "a"
      · rw [own]
        rfl
      · rw [if_neg own]
        exact AList.lookup_insert_ne own
    rw [members, jobs, List.mem_singleton, Prod.mk.injEq]
    have zero : Redis.millisToIso score = 0 ↔ score = 0 := by
      rw [Redis.millisToIso, Int.mul_eq_zero]
      exact or_iff_left (by decide)
    rw [zero]
    by_cases own : id = "a"
    · simp [own, eq_comm]
    · simp [own]
  · rw [jobs]
    intro entry member
    rw [List.mem_singleton.mp member]
    exact ⟨0, rfl⟩
  · rw [jobs]
    intro entry member
    rw [List.mem_singleton.mp member]
    exact ⟨by decide, past⟩

/-- One hour, in nanoseconds. -/
def oneHour : Duration := 3600000000000

/-- After one hour an age of one hour removes the job. -/
theorem retention_agrees_hour
    : RemovedLocally localWithCompleted
        (localWithCompleted.applyFinishedRetentionLocked .completed { age := some oneHour } oneHour)
        "a" :=
  ((retention_agrees (sameFinished_completed (by decide))
    (rfl : JobRetention.validate { age := some oneHour } "completed_retention" = .ok ())
    (fun age given => by cases given; decide) (by decide) (by decide)).2.mpr
    (.inr (fun age given => by cases given; decide)) "a").mpr (by decide)

/-- The longest duration in whole seconds. -/
def longestAge : Duration := u64Max * 1000000000

/-- The longest age removes the job locally at the moment when it is completed, and the scripts
keep it.
-/
theorem longest_age_removes_at_once
    : JobRetention.validate { age := some longestAge } "completed_retention" = .ok ()
      ∧ RemovedLocally localWithCompleted
          (localWithCompleted.applyFinishedRetentionLocked .completed { age := some longestAge } 0)
          "a"
      ∧ ((redisWithCompleted.applyFinishedRetention 0 (some { age := some longestAge })
          .completed).finished .completed).lookup "a" = some 0 := by
  refine ⟨rfl, ⟨by decide, by decide⟩, ?_⟩
  have removes := (sameFinished_completed (le_refl 0)).removes
    (rfl : JobRetention.validate { age := some longestAge } "completed_retention" = .ok ())
    (fun age given => by cases given; decide) (by decide)
  exact removes.members "a"

end Example

end Lane
