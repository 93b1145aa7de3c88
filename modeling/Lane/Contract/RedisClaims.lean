import Lane.Contract.RedisLeases

/-! What a worker gets from a Redis queue in any state that requests lead to: a claim takes the least
waiting job in the claim order, it finds none only when it must not take one or there is none, and a
call that is rejected changes nothing.
-/

namespace Lane

open NewestFirst

variable {start : RedisServer} {history : RedisHistory}

-----------------------------------------------------------------------------------------
-- Claim order
-----------------------------------------------------------------------------------------

/-- The first member of a sorted set comes before every other one. -/
theorem SortedSet.ranked_head {set : SortedSet} {head entry : String × Int}
    {rest : List (String × Int)} (first : set.ranked = head :: rest) (member : entry ∈ rest)
    : head.2 < entry.2 ∨ head.2 = entry.2 ∧ head.1 < entry.1 := by
  have ordered := set.ordered_newest
  rw [Ordered, newest, first, List.reverse_cons, List.pairwise_append] at ordered
  exact ordered.2.2 entry (List.mem_reverse.mpr member) head (List.mem_singleton_self head)

namespace RedisServer

variable {s : RedisServer} {jobId : JobId}

/-- The first candidate has the least score among the waiting jobs. -/
theorem candidates_head {job other : Job} {otherId : JobId} (inOrder : s.keys.InOrder)
    (head : s.candidates.head? = some jobId) (found : s.keys.jobs jobId = some job)
    (waits : job.state = .waiting) (known : s.keys.jobs otherId = some other)
    (alsoWaits : other.state = .waiting)
    : compareWaitingScore job other ≠ .gt := by
  have named := inOrder.named (Set.notMem_empty jobId) found
  have otherNamed := inOrder.named (Set.notMem_empty otherId) known
  have own : (jobId, waitingScore job) ∈ s.keys.waiting.ranked :=
    SortedSet.mem_ranked.mpr (inOrder.listed_of_waits found waits)
  have listed : (otherId, waitingScore other) ∈ s.keys.waiting.ranked :=
    SortedSet.mem_ranked.mpr (inOrder.listed_of_waits known alsoWaits)
  cases ranked : s.keys.waiting.ranked with
  | nil =>
      rw [ranked] at own
      cases own
  | cons first rest =>
      have same : first.1 = jobId := by
        simpa [candidates, ranked, candidateLimit] using head
      have score : first.2 = waitingScore job := by
        have firstListed := SortedSet.mem_ranked.mp
          (show first ∈ s.keys.waiting.ranked from ranked ▸ List.mem_cons_self)
        rw [same, inOrder.listed_of_waits found waits] at firstListed
        exact (Option.some.inj firstListed).symm
      rw [ranked] at listed
      unfold compareWaitingScore
      rcases List.mem_cons.mp listed with isFirst | later
      · have equal : otherId = jobId := by rw [← same, ← isFirst]
        rw [equal, found] at known
        cases known
        simp
      · rw [named, otherNamed, ← same, ← score]
        rcases SortedSet.ranked_head ranked later with less | ⟨equal, before⟩
        · rw [compare_lt_iff_lt.mpr less]
          intro greater
          cases greater
        · rw [show compare first.2 (waitingScore other) = .eq from compare_eq_iff_eq.mpr equal,
            Ordering.eq_then, compare_lt_iff_lt.mpr before]
          decide

end RedisServer

namespace Keyspace

variable {keys : Keyspace} {job : Job} {jobId id : JobId}

/-- A promotion takes no job out of the waiting set. -/
theorem promoteDueJob_keeps (keys : Keyspace) (jobId : JobId)
    (listed : (keys.waiting.lookup id).isSome = true)
    : ((keys.promoteDueJob jobId).1.waiting.lookup id).isSome = true := by
  unfold promoteDueJob
  split
  · exact listed
  · dsimp only
    split
    · rw [filing_eq (syncRepeatScheduler_filing _ _ jobId _) Keyspace.waiting (fun _ => rfl)]
      by_cases own : id = jobId
      · rw [own]
        simp [enqueueWaitingJob, SortedSet.add]
      · simpa [enqueueWaitingJob, SortedSet.add, setJob, leaveDelayed, AList.lookup_insert_ne own]
          using listed
    · exact listed

theorem promoteDueJobs_keeps (keys : Keyspace) (jobIds : List JobId)
    (listed : (keys.waiting.lookup id).isSome = true)
    : ((keys.promoteDueJobs jobIds).1.waiting.lookup id).isSome = true := by
  induction jobIds generalizing keys with
  | nil => exact listed
  | cons jobId rest ih => exact ih _ (keys.promoteDueJob_keeps jobId listed)

theorem promoteDueJob_lists (jobId : JobId) (found : keys.jobs jobId = some job)
    (delayed : job.state = .delayed)
    : ((keys.promoteDueJob jobId).1.waiting.lookup jobId).isSome = true := by
  unfold promoteDueJob
  rw [found]
  dsimp only
  rw [if_pos delayed]
  dsimp only
  rw [filing_eq (syncRepeatScheduler_filing _ _ jobId _) Keyspace.waiting (fun _ => rfl)]
  simp [enqueueWaitingJob, SortedSet.add]

theorem mem_dueIds {nowMillis : Int} {limit : Nat} (due : id ∈ keys.dueIds nowMillis limit)
    : ∃ score, keys.delayed.lookup id = some score ∧ score ≤ nowMillis := by
  obtain ⟨entry, member, rfl⟩ := List.mem_map.mp (List.mem_of_mem_take due)
  obtain ⟨listed, inTime⟩ := List.mem_filter.mp member
  exact ⟨entry.2, SortedSet.mem_ranked.mp listed, by simpa using inTime⟩

theorem dueIds_eq_nil_iff {nowMillis : Int} {limit : Nat} (limited : 0 < limit)
    : keys.dueIds nowMillis limit = []
      ↔ ∀ id score, keys.delayed.lookup id = some score → nowMillis < score := by
  constructor
  · intro none id score listed
    by_contra due
    have member : (id, score) ∈ keys.delayed.ranked.filter (fun entry => entry.2 ≤ nowMillis) :=
      List.mem_filter.mpr ⟨SortedSet.mem_ranked.mpr listed, by simpa using not_lt.mp due⟩
    rw [dueIds, List.take_eq_nil_iff, List.map_eq_nil_iff] at none
    rcases none with zero | empty
    · omega
    · rw [empty] at member
      cases member
  · intro none
    rw [List.eq_nil_iff_forall_not_mem]
    intro id due
    obtain ⟨score, listed, inTime⟩ := mem_dueIds due
    exact absurd (none id score listed) (not_lt.mpr inTime)

end Keyspace

namespace RedisServer

variable {s : RedisServer}

theorem candidates_eq_nil_iff : s.candidates = [] ↔ ∀ id, s.keys.waiting.lookup id = none := by
  constructor
  · intro none id
    cases listed : s.keys.waiting.lookup id with
    | none => rfl
    | some score =>
        have member := SortedSet.mem_ranked.mpr
          (show s.keys.waiting.lookup (id, score).1 = some (id, score).2 from listed)
        rw [candidates, List.take_eq_nil_iff, List.map_eq_nil_iff] at none
        rcases none with zero | empty
        · cases zero
        · rw [empty] at member
          cases member
  · intro none
    rw [List.eq_nil_iff_forall_not_mem]
    intro id candidate
    obtain ⟨score, listed⟩ := s.candidates_listed candidate
    rw [none id] at listed
    cases listed

theorem readied_keys (s : RedisServer) (now : DateTime)
    : (s.readied now).keys = (s.keys.promoteDue (timestampMillis now)).1 := by
  rw [← s.isPausedOrMaxed_keys]
  rfl

/-- After promotion no job waits exactly when none waited and none was due. -/
theorem readied_candidates_eq_nil_iff (inOrder : s.keys.InOrder) (now : DateTime)
    : (s.readied now).candidates = []
      ↔ (∀ id job, s.keys.jobs id = some job → job.state ≠ .waiting)
        ∧ ∀ id score, s.keys.delayed.lookup id = some score → timestampMillis now < score := by
  have limit : 0 < Keyspace.promotionLimit := by decide
  rw [candidates_eq_nil_iff, readied_keys, ← Keyspace.dueIds_eq_nil_iff limit, Keyspace.promoteDue]
  cases due : s.keys.dueIds (timestampMillis now) Keyspace.promotionLimit with
  | nil =>
      refine ⟨fun none => ⟨?_, rfl⟩, ?_⟩
      · intro id job found waits
        have listed := inOrder.listed_of_waits found waits
        rw [show s.keys.waiting.lookup id = _ from none id] at listed
        cases listed
      · rintro ⟨none, _⟩ id
        exact inOrder.waiting_absent (Set.notMem_empty id) (none id)
  | cons first rest =>
      have member : first ∈ s.keys.dueIds (timestampMillis now) Keyspace.promotionLimit := by
        rw [due]
        exact List.mem_cons_self
      obtain ⟨score, listed, _⟩ := Keyspace.mem_dueIds member
      have held : (s.keys.place first).holds .delayed = true := by
        rw [← (inOrder.fits first (Set.notMem_empty first)).delayed]
        simp [Keyspace.place, listed]
      have waits : ((s.keys.promoteDueJobs (first :: rest)).1.waiting.lookup first).isSome
          = true := by
        cases found : s.keys.jobs first with
        | none => simp [Placement.holds, Keyspace.place, found] at held
        | some job =>
            have delayed : job.state = .delayed := by
              simpa [Placement.holds, Keyspace.place_tag found] using held
            exact Keyspace.promoteDueJobs_keeps _ rest
              (Keyspace.promoteDueJob_lists first found delayed)
      refine ⟨fun none => ?_, fun both => by cases both.2⟩
      rw [none first] at waits
      cases waits

theorem readied_isLimited (s : RedisServer) (now : DateTime) (args : ClaimArgs)
    : (s.readied now).isLimited args ↔ s.isLimited args := by
  unfold readied promote isPausedOrMaxed
  split
  · rfl
  · split <;> rfl

end RedisServer

namespace RedisServer

/-- A call about one job is accepted. -/
def accepts (s : RedisServer) : RedisRequest → Bool
  | .completeJob args => (s.keys.complete args).2.isOk
  | .failJob args => (s.keys.fail args).2.isOk
  | .renewLease jobId lockToken leaseFor now =>
      (s.keys.renewLease jobId lockToken (addDuration now leaseFor)).2.isOk
  | .delayActiveJob jobId lockToken delay now =>
      (s.keys.delayActive jobId lockToken delay (addDuration now delay)).2.isOk
  | .releaseActiveJob jobId lockToken now => (s.keys.releaseActive jobId lockToken now).2.isOk
  | .promoteJob jobId now => (s.keys.promoteJob jobId now).2.isOk
  | .rescheduleJob jobId delay now =>
      (s.keys.rescheduleJob jobId delay (addDuration now delay)).2.isOk
  | .updatePriority jobId priority lifo => (s.keys.updatePriority jobId priority lifo).2.isOk
  | .updateData jobId payload => (s.keys.updateData jobId payload).2.isOk
  | .updateProgress jobId progress => (s.keys.updateProgress jobId progress).2.isOk
  | .saveStacktrace jobId stacktrace failedReason =>
      (s.keys.saveStacktrace jobId stacktrace failedReason).2.isOk
  | _ => true

theorem ends_rejected {s : RedisServer} {jobId : JobId} {lockToken : JobLockToken} {accepted : Bool}
    {keys : Keyspace} (ends : s.keys.EndsLease jobId lockToken accepted keys)
    (rejected : accepted = false)
    : ({ s with keys }, s.endedBy jobId lockToken accepted) = (s, []) := by
  rw [rejected] at ends ⊢
  rw [show keys = s.keys from ends]
  rfl

end RedisServer

end Lane
