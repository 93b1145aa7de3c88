import Lane.Worker.Worker
import Mathlib.Data.List.Nodup
import Mathlib.Data.List.Perm.Subperm

/-! What the shared registry of a worker says about its executions, and how every step keeps it. -/

namespace Lane

namespace JobWorker

variable {β : Type} {worker after : JobWorker β}

-----------------------------------------------------------------------------------------
-- Entries and contexts
-----------------------------------------------------------------------------------------

/-- Every execution in flight is registered under its own token and flag. -/
structure Registered (worker : JobWorker β) : Prop where
  entry : ∀ context ∈ worker.inFlight,
    worker.activeLeases.lookup context.jobId = some context.lease
  distinct : worker.inFlight.Nodup
  known : ∀ context ∈ worker.inFlight, context ∈ worker.contexts
  numbered : worker.contexts.map JobContext.leaseLost = List.range worker.contexts.length
  leases : ∀ jobId lease, worker.activeLeases.lookup jobId = some lease →
    { jobId, lockToken := lease.lockToken, leaseLost := lease.leaseLost } ∈ worker.contexts

theorem Registered.leaseLost_lt {context : JobContext} (registered : worker.Registered)
    (held : context ∈ worker.contexts)
    : context.leaseLost < worker.contexts.length := by
  have numbered : context.leaseLost ∈ worker.contexts.map JobContext.leaseLost :=
    List.mem_map_of_mem held
  rw [registered.numbered] at numbered
  exact List.mem_range.mp numbered

/-- No two contexts share their flag. -/
theorem Registered.eq_of_leaseLost {left right : JobContext} (registered : worker.Registered)
    (leftHeld : left ∈ worker.contexts) (rightHeld : right ∈ worker.contexts)
    (same : left.leaseLost = right.leaseLost)
    : left = right := by
  have distinct : (worker.contexts.map JobContext.leaseLost).Nodup := by
    rw [registered.numbered]
    exact List.nodup_range
  exact List.inj_on_of_nodup_map distinct leftHeld rightHeld same

/-- Executions in flight of one job are one execution, since they share their entry. -/
theorem Registered.eq_of_jobId {left right : JobContext} (registered : worker.Registered)
    (leftFlies : left ∈ worker.inFlight) (rightFlies : right ∈ worker.inFlight)
    (same : left.jobId = right.jobId)
    : left = right := by
  have shared : left.lease = right.lease := by
    have leftEntry := registered.entry left leftFlies
    rw [same, registered.entry right rightFlies] at leftEntry
    exact (Option.some.inj leftEntry).symm
  exact registered.eq_of_leaseLost (registered.known left leftFlies)
    (registered.known right rightFlies) (congrArg ActiveJobLease.leaseLost shared)

/-- Steps that neither register nor unregister keep the entries, when they leave no other
executions in flight than before.
-/
theorem Registered.of_subperm (registered : worker.Registered)
    (inFlight : after.inFlight.Subperm worker.inFlight)
    (activeLeases : after.activeLeases = worker.activeLeases)
    (contexts : after.contexts = worker.contexts)
    : after.Registered where
  entry context flies := activeLeases ▸ registered.entry context (inFlight.subset flies)
  distinct := by
    obtain ⟨kept, perm, sublist⟩ := inFlight
    exact perm.nodup_iff.mp (registered.distinct.sublist sublist)
  known context flies := contexts ▸ registered.known context (inFlight.subset flies)
  numbered := contexts ▸ registered.numbered
  leases jobId lease found := by
    rw [activeLeases] at found
    exact contexts ▸ registered.leases jobId lease found

theorem inFlight_moveTo {execution : Execution} (stage : Stage)
    (member : execution ∈ worker.executions)
    : (worker.moveTo execution stage).inFlight.Perm worker.inFlight := by
  have split := (List.perm_cons_erase member).map Execution.context
  exact split.symm

theorem inFlight_finish (worker : JobWorker β) (execution : Execution)
    : (worker.finish execution).inFlight.Sublist worker.inFlight :=
  List.erase_sublist.map Execution.context

/-- The execution that is over is no longer in flight. -/
theorem Registered.not_mem_finish {execution : Execution} (registered : worker.Registered)
    (member : execution ∈ worker.executions)
    : execution.context ∉ (worker.finish execution).inFlight := by
  have split := (List.perm_cons_erase member).map Execution.context
  have distinct := split.nodup_iff.mp registered.distinct
  exact (List.nodup_cons.mp distinct).1

/-- A new execution is registered when no other execution of its job is in flight. -/
theorem Registered.registers {claimed : List Job} {jobId : JobId} (lockToken : JobLockToken)
    (registered : worker.Registered)
    (alone : ∀ context ∈ worker.inFlight, context.jobId ≠ jobId)
    : Registered
        (({ worker with claimed }.begin (worker.newContext jobId lockToken)).registerActiveLease
          (worker.newContext jobId lockToken)) where
  entry context flies := by
    rcases List.mem_cons.mp flies with rfl | flies
    · exact AList.lookup_insert _
    · have other : context.jobId ≠ (worker.newContext jobId lockToken).jobId :=
        alone context flies
      exact (AList.lookup_insert_ne other).trans (registered.entry context flies)
  distinct := by
    apply List.nodup_cons.mpr
    refine ⟨?_, registered.distinct⟩
    intro flies
    exact Nat.lt_irrefl _ (registered.leaseLost_lt (registered.known _ flies))
  known context flies := by
    rcases List.mem_cons.mp flies with rfl | flies
    · exact List.mem_append_right _ (List.mem_singleton.mpr rfl)
    · exact List.mem_append_left _ (registered.known context flies)
  numbered := by
    simp only [registerActiveLease, begin, List.map_append, List.length_append, registered.numbered,
      List.map_cons, List.map_nil, List.length_singleton, List.range_succ, newContext]
  leases other lease found := by
    by_cases same : other = jobId
    · subst same
      have inserted : some lease = some (worker.newContext other lockToken).lease :=
        found.symm.trans (AList.lookup_insert _)
      cases inserted
      exact List.mem_append_right _ (List.mem_singleton.mpr rfl)
    · exact List.mem_append_left _
        (registered.leases other lease ((AList.lookup_insert_ne same).symm.trans found))

/-- An execution that stops takes only its own entry with it. -/
theorem Registered.stops {execution : Execution} (registered : worker.Registered)
    (member : execution ∈ worker.executions)
    : ((worker.finish execution).unregisterActiveLease execution.context.jobId).Registered where
  entry context flies := by
    have remains := (inFlight_finish worker execution).subset flies
    have other : context.jobId ≠ execution.context.jobId := by
      intro same
      have own := registered.eq_of_jobId remains (List.mem_map_of_mem member) same
      exact registered.not_mem_finish member (own ▸ flies)
    exact (AList.lookup_erase_ne other).trans (registered.entry context remains)
  distinct := registered.distinct.sublist (inFlight_finish worker execution)
  known context flies := registered.known context ((inFlight_finish worker execution).subset flies)
  numbered := registered.numbered
  leases jobId lease found := by
    by_cases same : jobId = execution.context.jobId
    · subst same
      cases (AList.lookup_erase _ _).symm.trans found
    · exact registered.leases jobId lease ((AList.lookup_erase_ne same).symm.trans found)

-----------------------------------------------------------------------------------------
-- Lost flags and failed renewals
-----------------------------------------------------------------------------------------

/-- A set flag has its reason: a renewal of the own token failed, or a whole batch did. -/
def LostFor (worker : JobWorker β) (context : JobContext) : Prop :=
  context.renewal ∈ worker.failedRenewals ∨ context.leaseLost ∈ worker.lostInBatch

/-- What the renewal loop knows of the batch that it renews. -/
def BatchSound (worker : JobWorker β) : Renewing → Prop
  | .asleep => True
  | .renewing batch rest failed =>
      (batch.map JobLeaseRenewal.jobId).Nodup
        ∧ rest ⊆ batch
        ∧ ∀ jobId ∈ failed,
            ∃ renewal ∈ batch, renewal.jobId = jobId ∧ renewal ∈ worker.failedRenewals
  | .answered batch (.ok failed) =>
      ∀ renewal ∈ batch, renewal.jobId ∈ failed → renewal ∈ worker.failedRenewals
  | .answered _ (.error _) => True

/-- Flags are set for a reason, and the renewals that the renewal loop reports did fail. -/
structure FairlyLost (worker : JobWorker β) : Prop where
  reasons : ∀ context ∈ worker.contexts, context.leaseLost ∈ worker.lost → worker.LostFor context
  allocated : ∀ flag ∈ worker.lost, flag < worker.contexts.length
  batch : worker.BatchSound worker.renewing

theorem LostFor.mono {context : JobContext} (lostFor : worker.LostFor context)
    (failed : worker.failedRenewals ⊆ after.failedRenewals)
    (broken : worker.lostInBatch ⊆ after.lostInBatch)
    : after.LostFor context :=
  lostFor.imp (fun member => failed member) (fun member => broken member)

/-- A growing history keeps what is known of the batch. -/
theorem BatchSound.mono {renewing : Renewing} (sound : worker.BatchSound renewing)
    (failed : worker.failedRenewals ⊆ after.failedRenewals)
    : after.BatchSound renewing := by
  cases renewing with
  | asleep => trivial
  | renewing batch rest reported =>
      obtain ⟨distinct, within, reasons⟩ := sound
      refine ⟨distinct, within, ?_⟩
      intro jobId member
      obtain ⟨renewal, known, same, failing⟩ := reasons jobId member
      exact ⟨renewal, known, same, failed failing⟩
  | answered batch outcome =>
      cases outcome with
      | ok reported => exact fun renewal known member => failed (sound renewal known member)
      | error error => trivial

/-- Steps that set no flag keep the flags fair, when they leave what is known of the batch. -/
theorem FairlyLost.of_same (fair : worker.FairlyLost)
    (contexts : after.contexts = worker.contexts) (lost : after.lost = worker.lost)
    (failed : worker.failedRenewals ⊆ after.failedRenewals)
    (broken : worker.lostInBatch ⊆ after.lostInBatch)
    (batch : after.BatchSound after.renewing)
    : after.FairlyLost where
  reasons context held set := by
    rw [contexts] at held
    rw [lost] at set
    exact (fair.reasons context held set).mono failed broken
  allocated flag set := by
    rw [lost] at set
    exact contexts ▸ fair.allocated flag set
  batch := batch

/-- Flags are set fairly when each new one has its reason. -/
theorem FairlyLost.of_set {flags : List LeaseFlag} (fair : worker.FairlyLost)
    (contexts : after.contexts = worker.contexts) (lost : after.lost = flags ++ worker.lost)
    (failed : worker.failedRenewals ⊆ after.failedRenewals)
    (broken : worker.lostInBatch ⊆ after.lostInBatch)
    (allocated : ∀ flag ∈ flags, flag < worker.contexts.length)
    (reasons : ∀ context ∈ worker.contexts, context.leaseLost ∈ flags → after.LostFor context)
    (batch : after.BatchSound after.renewing)
    : after.FairlyLost where
  reasons context held set := by
    rw [contexts] at held
    rw [lost] at set
    rcases List.mem_append.mp set with set | set
    · exact reasons context held set
    · exact (fair.reasons context held set).mono failed broken
  allocated flag set := by
    rw [lost] at set
    rw [contexts]
    rcases List.mem_append.mp set with set | set
    · exact allocated flag set
    · exact fair.allocated flag set
  batch := batch

/-- A new execution starts with a flag that is not set. -/
theorem FairlyLost.registers {claimed : List Job} (jobId : JobId) (lockToken : JobLockToken)
    (fair : worker.FairlyLost)
    : FairlyLost
        (({ worker with claimed }.begin (worker.newContext jobId lockToken)).registerActiveLease
          (worker.newContext jobId lockToken)) where
  reasons context held set := by
    rcases List.mem_append.mp held with held | held
    · exact fair.reasons context held set
    · rw [List.mem_singleton] at held
      subst held
      exact absurd (fair.allocated _ set) (Nat.lt_irrefl _)
  allocated flag set := by
    have old := fair.allocated flag set
    simp only [registerActiveLease, begin, List.length_append, List.length_singleton]
    exact Nat.lt_succ_of_lt old
  batch := fair.batch.mono (fun _ member => member)

-----------------------------------------------------------------------------------------
-- The flags that a batch sets
-----------------------------------------------------------------------------------------

theorem mem_leaseFlags {jobIds : List JobId} {flag : LeaseFlag}
    : flag ∈ worker.leaseFlags jobIds
      ↔ ∃ jobId ∈ jobIds, ∃ lease,
          worker.activeLeases.lookup jobId = some lease ∧ lease.leaseLost = flag := by
  simp only [leaseFlags, List.mem_filterMap, Option.map_eq_some_iff]

theorem Registered.leaseFlags_lt {jobIds : List JobId} {flag : LeaseFlag}
    (registered : worker.Registered) (marked : flag ∈ worker.leaseFlags jobIds)
    : flag < worker.contexts.length := by
  obtain ⟨jobId, _, lease, found, rfl⟩ := mem_leaseFlags.mp marked
  exact registered.leaseLost_lt (registered.leases jobId lease found)

/-- The context whose flag is marked is the one whose lease is registered for a marked job. -/
theorem Registered.lookup_of_marked {jobIds : List JobId} {context : JobContext}
    (registered : worker.Registered) (held : context ∈ worker.contexts)
    (marked : context.leaseLost ∈ worker.leaseFlags jobIds)
    : context.jobId ∈ jobIds
      ∧ worker.activeLeases.lookup context.jobId = some context.lease := by
  obtain ⟨jobId, member, lease, found, same⟩ := mem_leaseFlags.mp marked
  have own := registered.eq_of_leaseLost held (registered.leases jobId lease found) same.symm
  subst own
  exact ⟨member, found⟩

/-- The copied batch names every job once. -/
theorem nodup_activeLeaseRenewals (worker : JobWorker β)
    : (worker.activeLeaseRenewals.map JobLeaseRenewal.jobId).Nodup := by
  have keys : worker.activeLeaseRenewals.map JobLeaseRenewal.jobId = worker.activeLeases.keys := by
    simp only [activeLeaseRenewals, List.map_map, AList.keys, List.keys]
    rfl
  rw [keys]
  exact worker.activeLeases.keys_nodup

/-- A batch renewed lease by lease reports the renewals that failed, since it names every job
once.
-/
theorem BatchSound.answered {batch rest : List JobLeaseRenewal} {failed : List JobId}
    (sound : worker.BatchSound (.renewing batch rest failed))
    : worker.BatchSound (.answered batch (.ok failed)) := by
  obtain ⟨distinct, _, reasons⟩ := sound
  intro renewal known reported
  obtain ⟨other, otherKnown, same, failing⟩ := reasons renewal.jobId reported
  exact List.inj_on_of_nodup_map distinct otherKnown known same ▸ failing

end JobWorker

end Lane
