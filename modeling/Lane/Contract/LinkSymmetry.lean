import Lane.Board.ExclusiveKeys
import Lane.Board.Relinks

/-! Parent and child links are symmetric: a retained job names a retained parent exactly when the
parent lists it, as long as nothing enters under an id that another retained job still names
or lists.
-/

namespace Lane

namespace InMemoryJobQueueState

/-- A retained job names a retained parent exactly when that parent lists it. -/
def SymmetricLinks (s : InMemoryJobQueueState) : Prop :=
  ∀ childId parentId child parent,
    s.jobs.get childId = some child
    → s.jobs.get parentId = some parent
    → (child.parentId = some parentId ↔ childId ∈ parent.childIds)

/-- The operation submits a child with this id. -/
def SubmitsChild (queue : QueueName) (op : Op) (id : JobId) : Prop :=
  ∃ parentId children now,
    op.flowChildren queue = some (parentId, children, now) ∧ id ∈ children.map Job.id

/-- The operation may bring in a job under this id, which no job has, below this parent: a
submitted job, a parent or a child of a submission, or a candidate that was kept.
-/
inductive BringsIn (queue : QueueName) (s : InMemoryJobQueueState) (op : Op)
    : JobId → Option JobId → Prop
  | submitted {job : Job} (member : job ∈ op.submits queue) (free : s.jobs.get job.id = none)
    : BringsIn queue s op job.id none
  | parent {parentId : JobId} {children : List Job} {now : DateTime}
    (submits : op.flowChildren queue = some (parentId, children, now))
    (creates : CreatesParent queue s op)
    : BringsIn queue s op parentId none
  | child {parentId : JobId} {children : List Job} {now : DateTime} {child : Job}
    (submits : op.flowChildren queue = some (parentId, children, now))
    (joins : (∃ parent, s.jobs.get parentId = some parent) ∨ CreatesParent queue s op)
    (member : child ∈ children) (free : s.jobs.get child.id = none)
    : BringsIn queue s op child.id (some parentId)
  | candidate {now : DateTime} {job : Job} (enters : s.MayEnter op now job)
    : BringsIn queue s op job.id job.parentId

/-- The operation does not remove the record of the job when it finishes it. -/
def KeepsRecord (s : InMemoryJobQueueState) (op : Op) (id : JobId) : Prop :=
  ∀ now job, s.Finishes op now job true → job.id ≠ id

/-- What the operation brings in is linked with nobody else: a retained job that still lists the
id is the parent that it enters below, and one that still names the id is submitted as a
child. Candidates of one recovery that name each other enter as one flow, and no submitted
parent has two new children that wait for the end of one owner.
-/
structure SparesLinks (queue : QueueName) (s : InMemoryJobQueueState) (op : Op) : Prop where
  listed
    : ∀ id parentId other job,
        s.BringsIn queue op id parentId
        → s.KeepsRecord op other
        → s.jobs.get other = some job
        → id ∈ job.childIds
        → parentId = some other
  named
    : ∀ id parentId other job,
        s.BringsIn queue op id parentId
        → s.KeepsRecord op other
        → s.jobs.get other = some job
        → job.parentId = some id
        → SubmitsChild queue op other
  candidates
    : ∀ now left right,
        s.MayEnter op now left
        → s.MayEnter op now right
        → left.parentId = some right.id
        → left.id ∈ right.childIds
  children
    : ∀ parentId children now,
        op.flowChildren queue = some (parentId, children, now)
        → CreatesParent queue s op
        → s.board.Unsuperseded now children

variable {cron : Cron} {find : Find} {queue : QueueName} {s : InMemoryJobQueueState} {op : Op}
  {b after settled : Board} {job : Job} {now : DateTime} {id other parentId : JobId}

theorem symmetricLinks_iff : s.SymmetricLinks ↔ s.board.Symmetric := by
  constructor
  · intro symmetric
    constructor
    · rintro childId parentId names ⟨card, shown⟩
      obtain ⟨child, found, named⟩ := board_names_iff.mp names
      obtain ⟨parent, parentFound, _⟩ := board_cards_some shown
      exact board_lists_iff.mpr
        ⟨parent, parentFound, (symmetric _ _ child parent found parentFound).mp named⟩
    · rintro childId parentId lists ⟨card, shown⟩
      obtain ⟨parent, parentFound, listed⟩ := board_lists_iff.mp lists
      obtain ⟨child, found, _⟩ := board_cards_some shown
      exact board_names_iff.mpr
        ⟨child, found, (symmetric _ _ child parent found parentFound).mpr listed⟩
  · intro symmetric childId parentId child parent found parentFound
    constructor
    · intro named
      obtain ⟨held, known, listed⟩ := board_lists_iff.mp
        (symmetric.listed (board_names_iff.mpr ⟨child, found, named⟩)
          ⟨_, board_cards_of_get parentFound⟩)
      rw [parentFound] at known
      obtain rfl := Option.some.inj known
      exact listed
    · intro listed
      obtain ⟨held, known, named⟩ := board_names_iff.mp
        (symmetric.named (board_lists_iff.mpr ⟨parent, parentFound, listed⟩)
          ⟨_, board_cards_of_get found⟩)
      rw [found] at known
      obtain rfl := Option.some.inj known
      exact named

-----------------------------------------------------------------------------------------
-- Ids that an operation brings in
-----------------------------------------------------------------------------------------

/-- An operation without flow children submits none. -/
theorem SparesLinks.unnamed (spares : s.SparesLinks queue op) {above : Option JobId}
    (brings : s.BringsIn queue op id above) (childless : op.flowChildren queue = none)
    (keeps : s.KeepsRecord op other)
    : ¬ s.board.Names other id := by
  intro names
  obtain ⟨job, found, named⟩ := board_names_iff.mp names
  obtain ⟨_, _, _, flow, _⟩ := spares.named id above other job brings keeps found named
  rw [childless] at flow
  cases flow

theorem SparesLinks.lists (spares : s.SparesLinks queue op) {above : Option JobId}
    (brings : s.BringsIn queue op id above) (keeps : s.KeepsRecord op other)
    (lists : s.board.Lists other id)
    : above = some other := by
  obtain ⟨job, found, listed⟩ := board_lists_iff.mp lists
  exact spares.listed id above other job brings keeps found listed

theorem keepsRecord_of_leaseless (leaseless : op.endsLease = none)
    (other : ∀ now, op ≠ .recoverStalledJobs now)
    : s.KeepsRecord op id :=
  fun _ _ finishes => absurd finishes (not_finishes leaseless other)

/-- What is submitted outside of flows is linked with nobody. -/
theorem SparesLinks.unlinked (spares : s.SparesLinks queue op) (member : job ∈ op.submits queue)
    (leaseless : op.endsLease = none) (notRecovery : ∀ now, op ≠ .recoverStalledJobs now)
    (childless : op.flowChildren queue = none) (absent : s.board.cards job.id = none)
    : s.board.Unlinked job.id := by
  have brings : s.BringsIn queue op job.id none := .submitted member (board_cards_none.mp absent)
  constructor
  · intro other lists
    cases spares.lists brings (keepsRecord_of_leaseless leaseless notRecovery) lists
  · intro other
    exact spares.unnamed brings childless (keepsRecord_of_leaseless leaseless notRecovery)

/-- A generated id is new, so nobody is linked with it. -/
theorem unlinked_of_fresh (fresh : FreshIds s op) (generated : id ∈ op.generatedIds)
    : s.board.Unlinked id := by
  have unmentioned {other : JobId} {job : Job} (found : s.jobs.get other = some job)
      : id ∉ job.mentionedIds := by
    intro mentioned
    refine (fresh.2 id generated).1 ?_
    unfold mentionedIds
    refine List.mem_append_left _ (List.mem_append_left _ (List.mem_flatMap.mpr ?_))
    exact ⟨job, JobMap.mem_values_of_get found, mentioned⟩
  constructor
  · intro other lists
    obtain ⟨job, found, listed⟩ := board_lists_iff.mp lists
    exact unmentioned found (List.mem_append_right _ listed)
  · intro other names
    obtain ⟨job, found, named⟩ := board_names_iff.mp names
    refine unmentioned found (List.mem_append_left _ (List.mem_cons_of_mem _ ?_))
    rw [named]
    exact List.mem_singleton_self id

-----------------------------------------------------------------------------------------
-- Submissions outside of flows
-----------------------------------------------------------------------------------------

theorem Submits.linked (submits : s.Submits job now after) (linked : s.board.Linked)
    (submitted : Submitted job) (free : s.board.cards job.id = none → s.board.Unlinked job.id)
    : after.Linked := by
  cases submits with
  | answered => exact linked
  | admitted sameId _ admits _ => exact linked.enter admits (sameId ▸ free)
  | coalesced _ _ coalesces =>
      refine linked.coalesces coalesces ?_ (fun _ impossible => impossible.elim)
      rintro _ rfl
      rw [submitted.parentless]
      exact ⟨nofun, submitted.childless⟩

/-- A submission makes no free id linked, also where it replaces the owner of the id. -/
theorem Submits.unlinked (submits : s.Submits job now after) (linked : s.board.Linked)
    (free : s.board.cards id = none → s.board.Unlinked id) (absent : after.cards id = none)
    : after.Unlinked id := by
  cases submits with
  | answered => exact free absent
  | coalesced _ _ coalesces =>
      have unshown := coalesces.retimes.cards_none.mp absent
      exact coalesces.retimes.keepsLinks.unlinked (free unshown)
  | @admitted replaced stored sameId _ admits _ =>
      have unlinked : s.board.Unlinked id := by
        cases shown : s.board.cards id with
        | none => exact free shown
        | some card =>
            have gone : replaced = some id := by
              by_contra kept
              rw [Board.enter_card_after shown admits kept] at absent
              cases absent
            obtain ⟨held, known, _, parentless, childless, _⟩ := admits.replacedFree gone
            exact linked.symmetric.unlinked known parentless childless
      constructor
      · rintro other ⟨card, found, listed⟩
        rcases Board.enter_card_before found with ⟨_, rfl⟩ | ⟨_, _, shown⟩
        · rw [show stored.freshCard.childIds = [] from admits.childless] at listed
          cases listed
        · exact unlinked.1 other ⟨card, shown, listed⟩
      · exact fun other names => unlinked.2 other (Board.enter_names admits names)

/-- A batch whose free ids are unlinked, by induction on the submissions. -/
theorem SubmitsEach.linked {jobs : List Job} {t : InMemoryJobQueueState}
    (each : SubmitsEach find now s jobs t) (linked : s.board.Linked)
    (submitted : ∀ job ∈ jobs, Submitted job)
    (free : ∀ job ∈ jobs, s.board.cards job.id = none → s.board.Unlinked job.id)
    : t.board.Linked := by
  induction each with
  | nil => exact linked
  | cons submits _ ih =>
      refine ih ?_ (fun job member => submitted job (List.mem_cons_of_mem _ member)) ?_
      · exact submits.linked linked (submitted _ List.mem_cons_self) (free _ List.mem_cons_self)
      · exact fun job member =>
          submits.unlinked linked (free job (List.mem_cons_of_mem _ member))

-----------------------------------------------------------------------------------------
-- Candidates that enter at the end of an owner
-----------------------------------------------------------------------------------------

/-- A board between the owners' ends of one operation: links agree, and each link comes from
before the operation or from a candidate that entered and has not finished.
-/
structure LinkStage (s : InMemoryJobQueueState) (op : Op) (now : DateTime) (b : Board) : Prop where
  linked : b.Linked
  names
    : ∀ {id above},
        b.Names id above
        → s.KeepsRecord op id ∧ s.board.Names id above
          ∨ ∃ job, s.MayEnter op now job ∧ job.id = id ∧ job.parentId = some above
  lists
    : ∀ {above id},
        b.Lists above id → s.KeepsRecord op above ∧ s.board.Lists above id ∨ b.Unfinished id

theorem keepsRecord_of_retained {owners : List Job} {removes : Job → Bool}
    (finishes : ∀ owner flag, s.Finishes op now owner flag ↔ owner ∈ owners ∧ flag = removes owner)
    (time : op.time = some now) (retires : s.board.Retires owners removes settled)
    (retained : settled.Retained id)
    : s.KeepsRecord op id := by
  rintro other job finished rfl
  obtain rfl := Option.some.inj (finished.time.symm.trans time)
  obtain ⟨member, removed⟩ := (finishes job true).mp finished
  exact Board.not_retained_of_absent (retires.gone job member removed.symm) retained

theorem LinkStage.of_retires {owners : List Job} {removes : Job → Bool}
    (linked : s.board.Linked)
    (finishes : ∀ owner flag, s.Finishes op now owner flag ↔ owner ∈ owners ∧ flag = removes owner)
    (time : op.time = some now) (retires : s.board.Retires owners removes settled)
    : s.LinkStage op now settled where
  linked := linked.settles retires.settles
  names names :=
    .inl ⟨keepsRecord_of_retained finishes time retires names.retained,
      retires.settles.names names⟩
  lists lists :=
    .inl ⟨keepsRecord_of_retained finishes time retires lists.retained,
      retires.settles.keepsLinks.lists lists⟩

theorem LinkStage.pruned (stage : s.LinkStage op now b) (pruned : b.Pruned after)
    : s.LinkStage op now after where
  linked := stage.linked.settles pruned.settles
  names names := stage.names (pruned.settles.names names)
  lists lists :=
    (stage.lists (pruned.settles.keepsLinks.lists lists)).imp_right pruned.unfinished

/-- The end of an owner, when what enters is linked with nobody else. -/
theorem LinkStage.ownerEnds {owner : Job} {admitted : List Job} (stage : s.LinkStage op now b)
    (spares : s.SparesLinks queue op) (childless : op.flowChildren queue = none)
    (ends : b.OwnerEnds owner now admitted after)
    (enters : ∀ job ∈ admitted, s.MayEnter op now job)
    : s.LinkStage op now after where
  linked := by
    refine stage.linked.ownerEnds ends ?_ ?_
    · intro job member other lists
      rcases stage.lists lists with ⟨keeps, before⟩ | ⟨card, found, _⟩
      · exact spares.lists (.candidate (enters job member)) keeps before
      · rw [ends.absent job member] at found
        cases found
    · intro job member other names
      rcases stage.names names with ⟨keeps, before⟩ | ⟨earlier, entered, rfl, named⟩
      · exact spares.unnamed (.candidate (enters job member)) childless keeps before
      · have listed := spares.candidates now earlier job entered (enters job member) named
        obtain ⟨child, inAdmitted, same, _⟩ :=
          (ends.lists_admitted stage.linked member).mp listed
        exact Board.not_retained_of_absent (same ▸ ends.absent child inAdmitted) names.retained
  names names := by
    rcases ends.names names with before | ⟨job, member, same, named⟩
    · exact stage.names before
    · exact .inr ⟨job, enters job member, same, named⟩
  lists := by
    have entered {job : Job} (member : job ∈ admitted) : after.Unfinished job.id :=
      ⟨_, ends.admitted_card stage.linked member, ends.alive job member⟩
    have before {above id : JobId} (lists : b.Lists above id)
        : s.KeepsRecord op above ∧ s.board.Lists above id ∨ after.Unfinished id := by
      refine (stage.lists lists).imp_right ?_
      rintro ⟨card, found, alive⟩
      obtain ⟨_, shown, more, rfl⟩ := ends.card_after found
      exact ⟨_, shown, alive⟩
    rintro above id ⟨card, found, listed⟩
    rcases ends.card_before found with
      ⟨old, shown, rfl | ⟨next, member, _, _, rfl⟩⟩ | ⟨parent, member, rfl, rfl, _⟩
    · exact before ⟨_, shown, listed⟩
    · rcases List.mem_append.mp listed with was | isNext
      · exact before ⟨old, shown, was⟩
      · exact .inr (List.mem_singleton.mp isNext ▸ entered member)
    · obtain ⟨child, inAdmitted, rfl, _⟩ :=
        (ends.lists_admitted stage.linked member).mp listed
      exact .inr (entered inAdmitted)

/-- Owners that end in turn, by induction on them. -/
theorem LinkStage.ownersEnd {owners : List Job} {removes : Job → Bool}
    (links : s.LinkStage op now b) (stage : s.Stage op b) (spares : s.SparesLinks queue op)
    (childless : op.flowChildren queue = none)
    (finishes : ∀ owner ∈ owners, s.Finishes op now owner (removes owner))
    (ends : Board.OwnersEnd now b owners after)
    : s.LinkStage op now after := by
  induction ends with
  | nil => exact links
  | cons ends pruned _ ih =>
      have enters := stage.mayEnter (finishes _ List.mem_cons_self) ends
      refine ih ((links.ownerEnds spares childless ends enters).pruned pruned)
        ((stage.ownerEnds ends).pruned pruned) ?_
      exact fun owner member => finishes owner (List.mem_cons_of_mem _ member)

-----------------------------------------------------------------------------------------
-- Submitted flows
-----------------------------------------------------------------------------------------

section Flow

variable {children : List Job} {submitted : Bool} {existingIds : List JobId} {p : FlowPlan}

theorem keepsRecord_of_flowChildren
    (submits : op.flowChildren queue = some (parentId, children, now))
    : s.KeepsRecord op id :=
  fun _ _ finishes => absurd finishes (not_finishes_of_flowChildren submits)

/-- A retained job that the operation submits as a child is attached. -/
theorem attached_of_submitsChild
    (submits : op.flowChildren queue = some (parentId, children, now))
    (gathers : s.board.Gathers now submitted parentId children existingIds p)
    (retained : s.board.Retained id) (submitsChild : SubmitsChild queue op id)
    : id ∈ p.attached := by
  obtain ⟨_, _, _, same, member⟩ := submitsChild
  rw [submits] at same
  obtain ⟨rfl, rfl, rfl⟩ := by simpa only [Option.some.injEq, Prod.mk.injEq] using same
  obtain ⟨child, inChildren, rfl⟩ := List.mem_map.mp member
  obtain ⟨card, found⟩ := retained
  exact gathers.joins child inChildren found

/-- A job that names an id that the submission brings in is attached. -/
theorem SparesLinks.attached (spares : s.SparesLinks queue op) {above : Option JobId}
    (submits : op.flowChildren queue = some (parentId, children, now))
    (gathers : s.board.Gathers now submitted parentId children existingIds p)
    (brings : s.BringsIn queue op id above) (names : s.board.Names other id)
    : other ∈ p.attached := by
  obtain ⟨job, found, named⟩ := board_names_iff.mp names
  exact attached_of_submitsChild submits gathers names.retained
    (spares.named id above other job brings (keepsRecord_of_flowChildren submits) found named)

/-- The new children of a submission are linked with its parent only. -/
theorem SparesLinks.planApart (spares : s.SparesLinks queue op) {parentCard : Card}
    (submits : op.flowChildren queue = some (parentId, children, now))
    (joins : (∃ parent, s.jobs.get parentId = some parent) ∨ CreatesParent queue s op)
    (gathers : s.board.Gathers now submitted parentId children existingIds p)
    (parent : s.board.PlanParent parentId existingIds p parentCard)
    (listed : parentCard.childIds = p.childIds)
    (apart : ChildrenApart now s.board submitted children)
    : s.board.PlanApart parentId existingIds p parentCard := by
  have brings {child : Job} (inserted : child ∈ p.inserted)
      : s.BringsIn queue op child.id (some parentId) := by
    obtain ⟨member, absent, _⟩ := gathers.inserted child inserted
    exact .child submits joins member (board_cards_none.mp absent)
  refine ⟨parent, listed, ?_, ?_, ?_⟩
  · intro child inserted
    refine (gathers.listsInserted child inserted).resolve_right ?_
    rintro ⟨key, supersedes⟩
    exact not_supersedes apart gathers inserted supersedes
  · intro child inserted other lists
    have same := spares.lists (brings inserted) (keepsRecord_of_flowChildren submits) lists
    exact (Option.some.inj same).symm
  · intro child inserted other names
    exact spares.attached submits gathers (brings inserted) names

end Flow

-----------------------------------------------------------------------------------------
-- One operation
-----------------------------------------------------------------------------------------

/-- A finishing operation submits no children. -/
theorem flowChildren_of_finishes {flag : Bool} (finishes : s.Finishes op now job flag)
    : op.flowChildren queue = none := by
  cases submits : op.flowChildren queue with
  | none => rfl
  | some flow => exact absurd finishes (not_finishes_of_flowChildren submits)

/-- Links still agree after an operation that spares them, by cases on its change. -/
theorem linked_step (cron : Cron) (find : Find) (fresh : FreshIds s op)
    (spares : s.SparesLinks queue op) (linked : s.board.Linked)
    : (step cron find queue s op).board.Linked := by
  have change := change_step cron find queue s op
  generalize (step cron find queue s op).board = after at change ⊢
  cases change with
  | settled settles => exact linked.settles settles
  | @disowned deduplicationId _ ownerId =>
      refine ⟨?_, ?_, ?_⟩
      · have keeps
            : (s.board.keep deduplicationId none none).KeepsLinks
                ((s.board.keep deduplicationId none none).disown ownerId) :=
          Board.keepsLinks_disown
        exact keeps.symmetric linked.symmetric
      · intro key kept stored
        simp only [Board.disown, Board.keep, Function.update_apply] at stored
        split at stored
        · cases stored
        · exact linked.next stored
      · intro key kept stored
        simp only [Board.disown, Board.keep, Function.update_apply] at stored
        split at stored
        · cases stored
        · exact linked.nextFlows stored
  | detached names _ settles => exact (linked.detached names).settles settles
  | @retried jobId now job _ enqueuedSeq found _ settles =>
      have keeps
          : s.board.KeepsLinks (s.board.put jobId (retriedJob job enqueuedSeq now).freshCard) :=
        Board.keepsLinks_put (board_cards_of_get found) rfl rfl
      exact (linked.put (keeps.symmetric linked.symmetric)).settles settles
  | submitted submits =>
      refine submits.linked linked (submitted_new _ _ _ _ _ _) ?_
      exact spares.unlinked (List.mem_singleton_self _) rfl (fun _ same => by cases same) rfl
  | submittedEach each =>
      refine each.linked linked ?_ ?_
      · intro job member
        obtain ⟨spec, _, rfl⟩ := List.mem_map.mp member
        exact submitted_new _ _ _ _ _ _
      · exact fun job member => spares.unlinked member rfl (fun _ same => by cases same) rfl
  | upserted admits =>
      exact linked.enter admits (spares.unlinked (List.mem_singleton_self _) rfl (fun _ same => by cases same) rfl)
  | sifted _ records sifts => exact linked.sifts records sifts
  | coalesced records _ _ coalesces =>
      refine linked.coalesces coalesces (fun _ impossible => impossible.elim) ?_
      rintro _ rfl
      exact ⟨records.parentless, List.nodup_cons.mpr ⟨records.records.apart, records.records.distinct⟩⟩
  | joined submits retimed gathers links _ _ settles =>
      obtain ⟨before, shown, same⟩ := gathers.sifts.retimes.card_before retimed
      have sameParent := congrArg Card.parentId same
      have sameChildren := congrArg Card.childIds same
      obtain ⟨parent, found, _⟩ := board_cards_some shown
      refine (linked.filled gathers ?_).settles settles
      refine spares.planApart submits (.inl ⟨parent, found⟩) gathers ?_ (by rw [links])
        (fun created => by cases created)
      refine .retained shown sameChildren.symm ?_
      rw [links]
      exact sameParent
  | @created _ _ _ parentJob _ p parentCard _ submits parentJob_eq records absent gathers unowned _
      links _ settles =>
      have creates := createsParent_of_submits submits parentJob_eq absent
        (fun key active => (unowned key active).1)
      have brings : s.BringsIn queue _ parentJob.id none := .parent submits creates
      have parent : s.board.PlanParent parentJob.id [] p parentCard := by
        refine .submitted absent rfl (by rw [links]; exact records.parentless) ?_ ?_
        · intro other lists
          cases spares.lists brings (keepsRecord_of_flowChildren submits) lists
        · exact fun other names => spares.attached submits gathers brings names
      refine (linked.filled gathers ?_).settles settles
      refine spares.planApart submits (.inr creates) gathers parent (by rw [links]) ?_
      exact fun _ => spares.children _ _ _ submits creates
  | @concluded _ owners now settled ended _ removes time finishes retires ends settles =>
      cases owners with
      | nil =>
          cases ends
          exact (linked.settles retires.settles).settles settles
      | cons owner rest =>
          have childless : op.flowChildren queue = none :=
            flowChildren_of_finishes ((finishes owner _).mpr ⟨List.mem_cons_self, rfl⟩)
          have links := LinkStage.of_retires linked finishes time retires
          refine Board.Linked.settles ?_ settles
          exact (links.ownersEnd (.of_retires retires finishes) spares childless
            (fun owner member => (finishes owner _).mpr ⟨member, rfl⟩) ends).linked
  | @continued _ _ _ next _ _ _ _ _ _ _ generated succeeds retires _ kept settles =>
      have before := retires.settles.trans kept
      have unlinked := before.keepsLinks.unlinked (unlinked_of_fresh fresh generated)
      have settled := linked.settles before
      refine (settled.put ?_).settles settles
      refine settled.symmetric.put_fresh unlinked succeeds.submitted.parentless
        succeeds.submitted.childless ?_
      intro id card found
      rw [Board.put_cards] at found
      split at found
      · next same => exact .inl ⟨same, (Option.some.inj found).symm⟩
      · next different => exact .inr ⟨different, found⟩

end InMemoryJobQueueState

/-- In a run whose operations spare the links, retained jobs name retained parents exactly when
those list them.
-/
theorem links_symmetric {cron : Cron} {queue : QueueName} {s : InMemoryJobQueueState}
    (run
      : ReachableWhen cron queue
          (fun s call => InMemoryJobQueueState.SparesLinks queue s call.op) s)
    : s.SymmetricLinks := by
  refine InMemoryJobQueueState.symmetricLinks_iff.mpr (Board.Linked.symmetric ?_)
  refine run.invariant (fun s => s.board.Linked) ?_ ?_
  · rw [InMemoryJobQueueState.board_empty]
    exact Board.linked_empty
  · rintro s call _ linked spares ⟨fresh, rfl⟩
    exact InMemoryJobQueueState.linked_step cron call.find fresh spares linked

-----------------------------------------------------------------------------------------
-- A removed child whose id is used again
-----------------------------------------------------------------------------------------

/-- A flow that loses one of its children. -/
def lostChild : List Call :=
  [ { op := .addFlowAt ({ name := "work" }, "top")
        [ ({ name := "work", options := { jobId := some "child" } }, "unused"),
          ({ name := "work" }, "sibling") ] 0 },
    { op := .remove "child" 1 } ]

theorem links_symmetric_lost
    : (serve noCron "queue" {} lostChild).SymmetricLinks := by
  have first
      : ({} : InMemoryJobQueueState).SparesLinks "queue"
          (.addFlowAt ({ name := "work" }, "top")
            [ ({ name := "work", options := { jobId := some "child" } }, "unused"),
              ({ name := "work" }, "sibling") ] 0) := by
    have empty {id : JobId} {job : Job} : ({} : InMemoryJobQueueState).jobs.get id ≠ some job :=
      nofun
    refine ⟨fun _ _ _ _ _ _ found => absurd found empty,
      fun _ _ _ _ _ _ found => absurd found empty, ?_, ?_⟩
    · intro now left right enters
      exact absurd enters (InMemoryJobQueueState.not_mayEnter_of_unkept rfl rfl)
    · rintro parentId children now submits creates left _ right _ key _ _ requires
      obtain ⟨_, _, ownerId, card, shown, _⟩ := requires
      cases shown
  have removed {s : InMemoryJobQueueState} (unkept : s.deduplicationNext.keys = [])
      (unkeptFlows : s.deduplicationNextFlows.keys = [])
      : s.SparesLinks "queue" (.remove "child" 1) := by
    have brings {id : JobId} {above : Option JobId}
        : ¬ s.BringsIn "queue" (.remove "child" 1) id above := by
      intro brings
      cases brings with
      | submitted member => cases member
      | parent submits => cases submits
      | child submits => cases submits
      | candidate enters =>
          exact InMemoryJobQueueState.not_mayEnter_of_unkept unkept unkeptFlows enters
    refine ⟨fun _ _ _ _ entered => absurd entered brings,
      fun _ _ _ _ entered => absurd entered brings, ?_, nofun⟩
    intro now left right enters
    exact absurd enters (InMemoryJobQueueState.not_mayEnter_of_unkept unkept unkeptFlows)
  have allowed
      : AllowedCalls noCron "queue" (fun s call => s.SparesLinks "queue" call.op) {} lostChild :=
    ⟨⟨first, by decide +kernel⟩,
      ⟨removed (by decide +kernel) (by decide +kernel), by decide +kernel⟩, trivial⟩
  exact links_symmetric (run_serve allowed)

/-- An unrelated job is submitted under the id of the child that was removed. -/
def reusedChild : InMemoryJobQueueState :=
  serve noCron "queue" {}
    (lostChild
      ++ [{ op := .addAt "work" .null { jobId := some "child" } 2 "unused" }])

theorem reachable_reusedChild : Reachable noCron "queue" reusedChild :=
  reaches_serve (by decide +kernel)

/-- The parent of the removed child lists a job that names no parent. -/
theorem links_asymmetric
    : ¬ ∀ (cron : Cron) (queue : QueueName) (s : InMemoryJobQueueState),
        Reachable cron queue s → s.SymmetricLinks := by
  intro symmetric
  have links := symmetric noCron "queue" reusedChild reachable_reusedChild "child" "top"
  have records
      : (reusedChild.jobs.get "child").any (fun child => child.parentId == none) = true
        ∧ (reusedChild.jobs.get "top").any (fun parent => "child" ∈ parent.childIds) = true := by
    decide +kernel
  simp only [Option.any_eq_true, decide_eq_true_eq, beq_iff_eq] at records
  obtain ⟨⟨child, found, parentless⟩, parent, parentFound, listed⟩ := records
  have named := (links child parent found parentFound).mpr listed
  rw [parentless] at named
  cases named

end Lane
