import Lane.Board.Links
import Lane.Library.LinkGraph

/-! The flow graph is acyclic: following parent links never returns to the starting job, as
long as no job is submitted or admitted below one of its own descendants.
-/

namespace Lane

open LinkGraph Relation

namespace InMemoryJobQueueState

/-- The retained job names this parent, whether or not the parent is retained. -/
def ParentLink (s : InMemoryJobQueueState) (id parentId : JobId) : Prop :=
  ∃ job, s.jobs.get id = some job ∧ job.parentId = some parentId

/-- The parent link of a job that the operation may admit at the end of an owner. -/
def EnteringLink (s : InMemoryJobQueueState) (op : Op) (id parentId : JobId) : Prop :=
  ∃ now job, s.MayEnter op now job ∧ job.id = id ∧ job.parentId = some parentId

/-- No submitted child is above its parent, and no job that the operation may admit is above
the parent that it names, where the links of the other admitted jobs count as well.
-/
structure ClosesNoCycle (queue : QueueName) (s : InMemoryJobQueueState) (op : Op) : Prop where
  children
    : ∀ parentId children now,
        op.flowChildren queue = some (parentId, children, now)
        → ∀ child ∈ children, ¬ TransGen s.ParentLink parentId child.id
  entering
    : ∀ id parentId,
        s.EnteringLink op id parentId
        → ¬ ReflTransGen (With s.ParentLink (s.EnteringLink op)) parentId id

variable {queue : QueueName} {s : InMemoryJobQueueState} {op : Op} {after : Board}

instance (s : InMemoryJobQueueState) (id parentId : JobId) : Decidable (s.ParentLink id parentId) :=
  decidable_of_iff ((s.jobs.get id).any (fun job => job.parentId == some parentId) = true)
    (by simp [ParentLink, Option.any_eq_true])

theorem parentLink_iff {id parentId : JobId}
    : s.ParentLink id parentId ↔ s.board.Names id parentId :=
  board_names_iff.symm

/-- Children below one parent close no cycle. -/
theorem acyclic_of_fan {parentId : JobId} {children : List Job}
    (acyclic : Acyclic s.ParentLink) (records : ChildRecords parentId children)
    (apart : ∀ child ∈ children, ¬ TransGen s.ParentLink parentId child.id)
    (names
      : ∀ {id above},
          after.Names id above
          → s.board.Names id above ∨ id ∈ children.map Job.id ∧ above = parentId)
    : Acyclic after.Names := by
  have fan
      : Acyclic (With s.ParentLink (fun id above => id ∈ children.map Job.id ∧ above = parentId)) := by
    refine acyclic.addFan (fun _ _ fresh => fresh.2) ?_
    rintro id above ⟨member, rfl⟩
    refine ⟨fun same => records.apart (same ▸ member), ?_⟩
    obtain ⟨child, submitted, rfl⟩ := List.mem_map.mp member
    exact apart child submitted
  exact fan.of_subset (fun id above named => (names named).imp_left parentLink_iff.mpr)

/-- Parent links stay acyclic over an operation that closes no cycle, by cases on its change. -/
theorem acyclic_step (cron : Cron) (find : Find) (acyclic : Acyclic s.ParentLink) (closes : ClosesNoCycle queue s op)
    : Acyclic (step cron find queue s op).board.Names := by
  have change := change_step cron find queue s op
  generalize (step cron find queue s op).board = after at change ⊢
  have same (within : ∀ {id above}, after.Names id above → s.board.Names id above)
      : Acyclic after.Names :=
    acyclic.of_subset (fun _ _ names => parentLink_iff.mpr (within names))
  cases change with
  | settled settles => exact same settles.names
  | disowned =>
      refine same ?_
      rintro id above ⟨card, found, named⟩
      rw [Board.disown_cards] at found
      split at found
      · next isOwner =>
          obtain ⟨old, shown, rfl⟩ := Option.map_eq_some_iff.mp found
          exact ⟨old, isOwner ▸ shown, named⟩
      · exact ⟨card, found, named⟩
  | detached _ _ settles => exact same (fun names => (Board.detached_names (settles.names names)).2)
  | @retried jobId now job _ enqueuedSeq found _ settles =>
      refine same ?_
      intro id above names
      obtain ⟨card, shown, named⟩ := settles.names names
      rw [Board.put_cards] at shown
      split at shown
      · next isJob =>
          obtain rfl := Option.some.inj shown
          exact ⟨job.card _, isJob ▸ board_cards_of_get found, named⟩
      · exact ⟨card, shown, named⟩
  | submitted submits => exact same submits.names
  | submittedEach each => exact same (names_submitsEach each)
  | upserted admits => exact same (Board.enter_names admits)
  | sifted _ _ sifts => exact same sifts.retimes.names
  | coalesced _ _ _ coalesces => exact same coalesces.retimes.names
  | @joined _ parentId children _ p old parentCard _ submits retimed gathers links alive _ settles =>
      refine acyclic_of_fan acyclic gathers.records (closes.children _ _ _ submits) ?_
      intro id above names
      rcases gathers.names (settles.names names) with kept | child | ⟨rfl, named⟩
      · exact .inl kept
      · exact .inr child
      · rw [links] at named
        exact .inl (gathers.sifts.retimes.names ⟨old, retimed, named⟩)
  | @created _ _ _ parentJob _ _ _ _ submits _ records absent gathers _ _ links alive settles =>
      refine acyclic_of_fan acyclic gathers.records (closes.children _ _ _ submits) ?_
      intro id above names
      rcases gathers.names (settles.names names) with kept | child | ⟨_, named⟩
      · exact .inl kept
      · exact .inr child
      · rw [links, show parentJob.freshCard.parentId = none from records.parentless] at named
        cases named
  | @concluded _ _ now settled ended _ removes _ finishes retires ends settles =>
      have within
          : ∀ id above, ended.Names id above → With s.ParentLink (s.EnteringLink op) id above := by
        refine Stage.ownersEnd
          (fun b => ∀ id above, b.Names id above → With s.ParentLink (s.EnteringLink op) id above)
          (.of_retires retires finishes) ?_ (fun owner member => (finishes owner _).mpr ⟨member, rfl⟩)
          ?_ ?_ ends
        · exact fun id above names => .inl (parentLink_iff.mpr (retires.settles.names names))
        · exact fun within settles id above names => within id above (settles.names names)
        · intro b c owner admitted within ends enters id above names
          rcases ends.names names with before | ⟨job, member, same, named⟩
          · exact within id above before
          · exact .inr ⟨now, job, enters job member, same, named⟩
      exact (acyclic.add closes.entering).of_subset
        (fun id above names => within id above (settles.names names))
  | @continued _ _ _ next _ _ _ _ _ _ _ _ succeeds retires same' kept settles =>
      refine same ?_
      intro id above names
      rcases Board.put_names (settles.names names) with ⟨_, named⟩ | before
      · rw [succeeds.submitted.parentless] at named
        cases named
      · exact retires.settles.names (kept.names before)

end InMemoryJobQueueState

/-- In a run whose operations close no cycle, no path along parent links returns to its start. -/
theorem flows_acyclic {cron : Cron} {queue : QueueName} {s : InMemoryJobQueueState}
    (run
      : ReachableWhen cron queue
          (fun s call => InMemoryJobQueueState.ClosesNoCycle queue s call.op) s)
    : Acyclic s.ParentLink := by
  refine run.invariant (fun s => Acyclic s.ParentLink) ?_ ?_
  · refine acyclic_empty.of_subset ?_
    rintro id above ⟨job, found, _⟩
    cases found
  · rintro s call _ acyclic closes ⟨_, rfl⟩
    have board := InMemoryJobQueueState.acyclic_step cron call.find acyclic closes
    exact board.of_subset (fun _ _ => InMemoryJobQueueState.parentLink_iff.mp)

-----------------------------------------------------------------------------------------
-- Two jobs that wait for each other
-----------------------------------------------------------------------------------------

/-- A job that fans out below itself, up to the claim of its child. -/
def claimedChild : List Call :=
  [ { op := .addAt "work" .null {} 0 "top" },
    { op := .claimNext "worker" 10 0 "lease-1" },
    { op := .addFlowChildrenAt "top" "lease-1" [({ name := "work" }, "child")] 1 },
    { op := .claimNext "worker" 10 1 "lease-2" } ]

/-- The child attaches the job above it as a child of its own. -/
def mutualParents : InMemoryJobQueueState :=
  serve noCron "queue" {}
    (claimedChild
      ++ [{ op := .addFlowChildrenAt "child" "lease-2"
              [({ name := "work", options := { jobId := some "top" } }, "unused")] 2 }])

theorem reachable_mutualParents : Reachable noCron "queue" mutualParents :=
  reaches_serve (by decide +kernel)

theorem parents_in_cycle
    : ¬ ∀ (cron : Cron) (queue : QueueName) (s : InMemoryJobQueueState),
        Reachable cron queue s → Acyclic s.ParentLink := by
  intro acyclic
  refine acyclic noCron "queue" mutualParents reachable_mutualParents "top" ?_
  have up : mutualParents.ParentLink "top" "child" := by decide +kernel
  have back : mutualParents.ParentLink "child" "top" := by decide +kernel
  exact .tail (.single up) back

/-- An id that no retained job names is not above any job. -/
theorem not_above_of_unnamed {s : InMemoryJobQueueState} {id : JobId}
    (unnamed : s.jobs.values.all (fun job => job.parentId != some id) = true) (below : JobId)
    : ¬ TransGen s.ParentLink below id := by
  intro path
  obtain ⟨last, _, job, found, named⟩ := TransGen.tail'_iff.mp path
  have other := List.all_eq_true.mp unnamed job (JobMap.mem_values_of_get found)
  simp [named] at other

/-- A state without kept candidates admits nobody: only the submitted children matter. -/
theorem closesNoCycle_of_unkept {queue : QueueName} {s : InMemoryJobQueueState} {op : Op}
    (unkept : s.deduplicationNext.keys = []) (unkeptFlows : s.deduplicationNextFlows.keys = [])
    (unnamed
      : ∀ parentId children now,
          op.flowChildren queue = some (parentId, children, now)
          → ∀ child ∈ children, s.jobs.values.all (fun job => job.parentId != some child.id) = true)
    : s.ClosesNoCycle queue op where
  children parentId children now submits child member :=
    not_above_of_unnamed (unnamed parentId children now submits child member) parentId
  entering := by
    rintro id parentId ⟨now, job, enters, _⟩
    exact absurd enters (InMemoryJobQueueState.not_mayEnter_of_unkept unkept unkeptFlows)

/-- The child fans out to a new job instead. -/
def nestedFanOut : List Call :=
  claimedChild
    ++ [{ op := .addFlowChildrenAt "child" "lease-2" [({ name := "work" }, "leaf")] 2 }]

theorem flows_acyclic_nested : Acyclic (serve noCron "queue" {} nestedFanOut).ParentLink := by
  have fanOut {s : InMemoryJobQueueState} {parentId : JobId} {lockToken : JobLockToken}
      {children : List (JobSpec × JobId)} {now : DateTime}
      (unnamed
        : ∀ child ∈ InMemoryJobQueueState.flowChildJobs "queue" parentId children now,
            s.jobs.values.all (fun job => job.parentId != some child.id) = true)
      : ∀ above jobs time,
          (Op.addFlowChildrenAt parentId lockToken children now).flowChildren "queue"
            = some (above, jobs, time)
          → ∀ child ∈ jobs, s.jobs.values.all (fun job => job.parentId != some child.id) = true := by
    intro above jobs time submits
    obtain ⟨_, rfl, _⟩ := Prod.mk.inj (Option.some.inj submits)
    exact unnamed
  have allowed
      : AllowedCalls noCron "queue" (fun s call => s.ClosesNoCycle "queue" call.op) {}
          nestedFanOut := by
    refine ⟨⟨closesNoCycle_of_unkept (by decide +kernel) (by decide +kernel) nofun, by decide +kernel⟩,
      ⟨closesNoCycle_of_unkept (by decide +kernel) (by decide +kernel) nofun, by decide +kernel⟩,
      ⟨closesNoCycle_of_unkept (by decide +kernel) (by decide +kernel) (fanOut (by decide +kernel)),
        by decide +kernel⟩,
      ⟨closesNoCycle_of_unkept (by decide +kernel) (by decide +kernel) nofun, by decide +kernel⟩,
      ⟨closesNoCycle_of_unkept (by decide +kernel) (by decide +kernel) (fanOut (by decide +kernel)),
        by decide +kernel⟩,
      trivial⟩
  exact flows_acyclic (run_serve allowed)

end Lane
