import Lane.Board.Links
import Lane.Filing.Operations

/-! A failed child that fails its parent stays on record: the parent goes on listing it, the child
stays failed, and the side index keeps the failure after the child is gone.
-/

namespace Lane

-----------------------------------------------------------------------------------------
-- The failure on the board
-----------------------------------------------------------------------------------------

/-- Cards that agree up to their expiry. -/
theorem Card.eq_of_untimed {card old : Card} (same : card.untimed = old.untimed)
    : card = { old with deduplicationExpiresAt := card.deduplicationExpiresAt } := by
  cases card
  cases old
  simp only [untimed, Card.mk.injEq] at same ⊢
  tauto

namespace Board

/-- The parent lists the child, and a child that is retained below it has failed in a way that
fails the parent.
-/
structure FailedBelow (b : Board) (parentId childId : JobId) : Prop where
  listed : ∀ card, b.cards parentId = some card → childId ∈ card.childIds
  failed
    : ∀ card,
        b.cards childId = some card
        → card.parentId = some parentId
        → card.phase = .failed ∧ card.policy = .deferParent

/-- What may enter neither replaces the parent nor starts the child over below it. -/
def LeavesFailure (parentId childId : JobId) (job : Job) : Prop :=
  job.id ≠ parentId ∧ (job.id = childId → job.parentId ≠ some parentId)

variable {b after : Board} {id parentId childId above : JobId} {job : Job} {now : DateTime}

namespace FailedBelow

theorem settles (below : b.FailedBelow parentId childId) (settles : b.Settles after)
    : after.FailedBelow parentId childId where
  listed card found := by
    obtain ⟨old, shown, same, _⟩ := settles.card found
    rw [same.childIds]
    exact below.listed old shown
  failed card found named := by
    obtain ⟨old, shown, same, stays⟩ := settles.card found
    obtain ⟨phase, policy⟩ := below.failed old shown (same.parentId.symm.trans named)
    refine ⟨?_, same.policy.trans policy⟩
    rw [stays (by rw [phase]; rfl), phase]

theorem retimes (below : b.FailedBelow parentId childId) (retimes : b.Retimes after)
    : after.FailedBelow parentId childId where
  listed card found := by
    obtain ⟨old, shown, same⟩ := retimes.card_before found
    rw [Card.eq_of_untimed same]
    exact below.listed old shown
  failed card found named := by
    obtain ⟨old, shown, same⟩ := retimes.card_before found
    rw [Card.eq_of_untimed same] at named ⊢
    exact below.failed old shown named

/-- A card that is put in the place of neither of the two is not concerned. -/
theorem put (below : b.FailedBelow parentId childId) {card : Card}
    (listed : id = parentId → childId ∈ card.childIds)
    (failed
      : id = childId
        → card.parentId = some parentId
        → card.phase = .failed ∧ card.policy = .deferParent)
    : (b.put id card).FailedBelow parentId childId where
  listed other found := by
    rw [put_cards] at found
    split at found
    · next same =>
        obtain rfl := Option.some.inj found
        exact listed same.symm
    · exact below.listed other found
  failed other found named := by
    rw [put_cards] at found
    split at found
    · next same =>
        obtain rfl := Option.some.inj found
        exact failed same.symm named
    · exact below.failed other found named

/-- A record that enters names no parent, and a parent that lists a child is not replaced. -/
theorem enter (below : b.FailedBelow parentId childId) {replaced : Option JobId}
    (admits : b.Admits now replaced job) (retained : ∃ card, b.cards parentId = some card)
    : (b.enter replaced job).FailedBelow parentId childId where
  listed card found := by
    obtain ⟨parent, known⟩ := retained
    rcases enter_card_before found with ⟨rfl, _⟩ | ⟨_, _, shown⟩
    · rcases admits.absent with absent | isReplaced
      · rw [absent] at known
        cases known
      · obtain ⟨old, shown, _, _, childless, _⟩ := admits.replacedFree isReplaced
        have member := below.listed old shown
        rw [childless] at member
        cases member
    · exact below.listed card shown
  failed card found named := by
    rcases enter_card_before found with ⟨_, rfl⟩ | ⟨_, _, shown⟩
    · rw [show job.freshCard.parentId = none from admits.parentless] at named
      cases named
    · exact below.failed card shown named

/-- Taking another child off its parent leaves the failure. -/
theorem detached (below : b.FailedBelow parentId childId) {other : JobId}
    (different : childId ≠ other)
    : ((b.unlist above other).orphan other).FailedBelow parentId childId where
  listed card found := by
    obtain ⟨old, shown, rfl⟩ := detached_card_before found
    have member := below.listed old shown
    dsimp only
    split
    · exact List.mem_filter.mpr ⟨member, by simpa using different⟩
    · exact member
  failed card found named := by
    obtain ⟨old, shown, rfl⟩ := detached_card_before found
    dsimp only at named ⊢
    rw [if_neg different] at named
    exact below.failed old shown named

/-- Filling a plan keeps the failure: a listed child that is gone is not admitted again, and one
that is attached was retained below the same parent.
-/
theorem filled (below : b.FailedBelow parentId childId) {submitted : Bool} {children : List Job}
    {existingIds : List JobId} {p : FlowPlan} {parentCard : Card}
    (gathers : b.Gathers now submitted above children existingIds p)
    (retained : ∃ card, b.cards parentId = some card)
    (existing : above = parentId → childId ∈ existingIds)
    (listed : above = parentId → childId ∈ parentCard.childIds)
    (failed
      : above = childId
        → parentCard.parentId = some parentId
        → parentCard.phase = .failed ∧ parentCard.policy = .deferParent)
    : (p.filled above parentCard).FailedBelow parentId childId := by
  have sifted := below.retimes gathers.sifts.retimes
  refine ⟨?_, ?_⟩
  · intro card found
    rcases gathers.card_before found with
      ⟨same, rfl⟩ | ⟨old, shown, _, ⟨_, rfl⟩ | ⟨_, rfl⟩⟩ | ⟨child, inserted, rfl, _⟩
    · exact listed same.symm
    · exact sifted.listed card shown
    · exact sifted.listed old shown
    · obtain ⟨old, known⟩ := retained
      rw [(gathers.inserted child inserted).2.1] at known
      cases known
  · intro card found named
    rcases gathers.card_before found with
      ⟨same, rfl⟩ | ⟨old, shown, _, ⟨_, rfl⟩ | ⟨attached, rfl⟩⟩ | ⟨child, inserted, rfl, rfl⟩
    · exact failed same.symm named
    · exact sifted.failed card shown named
    · obtain rfl : above = parentId := Option.some.inj named
      obtain ⟨_, before, known, _, lists⟩ := gathers.attached childId attached
      obtain ⟨earlier, found, same⟩ := gathers.sifts.retimes.card_before shown
      rw [known] at found
      obtain rfl := Option.some.inj found
      refine sifted.failed old shown ?_
      rw [Card.eq_of_untimed same]
      exact lists (existing rfl)
    · obtain ⟨submittedChild, absent, _⟩ := gathers.inserted child inserted
      have toParent : child.freshCard.parentId = some above :=
        gathers.records.named child submittedChild
      obtain rfl : above = parentId := Option.some.inj (toParent.symm.trans named)
      exact absurd (existing rfl) (gathers.fresh child submittedChild absent)

theorem ownerEnds (below : b.FailedBelow parentId childId) {owner : Job} {admitted : List Job}
    (ends : b.OwnerEnds owner now admitted after)
    (leaves : ∀ job ∈ admitted, LeavesFailure parentId childId job)
    : after.FailedBelow parentId childId where
  listed card found := by
    rcases ends.card_before found with ⟨old, shown, origin⟩ | ⟨job, member, same, _, _⟩
    · have before := below.listed old shown
      rcases origin with rfl | ⟨_, _, _, _, rfl⟩
      · exact before
      · exact List.mem_append_left _ before
    · exact absurd same (leaves job member).1
  failed card found named := by
    rcases ends.card_before found with ⟨old, shown, origin⟩ | ⟨job, member, same, rfl, _⟩
    · rcases origin with rfl | ⟨_, _, _, _, rfl⟩
      · exact below.failed card shown named
      · exact below.failed old shown named
    · exact absurd named ((leaves job member).2 same)

end FailedBelow

end Board

namespace InMemoryJobQueueState

variable {s : InMemoryJobQueueState} {b after settled ended : Board} {op : Op} {find : Find}
  {job : Job} {now : DateTime} {parentId childId : JobId}

theorem Submits.failedBelow (submits : s.Submits job now after)
    (below : s.board.FailedBelow parentId childId)
    (retained : ∃ card, s.board.cards parentId = some card)
    : after.FailedBelow parentId childId ∧ ∃ card, after.cards parentId = some card := by
  obtain ⟨card, found⟩ := retained
  have listing : card.childIds ≠ [] := List.ne_nil_of_mem (below.listed card found)
  obtain ⟨kept, shown, _⟩ := retained_of_submits submits found listing
  refine ⟨?_, kept, shown⟩
  cases submits with
  | answered => exact below
  | admitted _ _ admits _ => exact below.enter admits ⟨card, found⟩
  | coalesced _ _ coalesces => exact below.retimes coalesces.retimes

/-- Jobs that are submitted in turn, by induction on them. -/
theorem SubmitsEach.failedBelow {jobs : List Job} {t : InMemoryJobQueueState}
    (each : SubmitsEach find now s jobs t) (below : s.board.FailedBelow parentId childId)
    (retained : ∃ card, s.board.cards parentId = some card)
    : t.board.FailedBelow parentId childId := by
  induction each with
  | nil => exact below
  | cons submits _ ih =>
      obtain ⟨first, still⟩ := submits.failedBelow below retained
      exact ih first still

/-- The ends of the owners of one operation keep the failure. -/
theorem Stage.failedBelow {owners : List Job} {removes : Job → Bool} (stage : s.Stage op settled)
    (below : settled.FailedBelow parentId childId)
    (finishes : ∀ owner ∈ owners, s.Finishes op now owner (removes owner))
    (leaves : ∀ now job, s.MayEnter op now job → Board.LeavesFailure parentId childId job)
    (ends : Board.OwnersEnd now settled owners ended)
    : ended.FailedBelow parentId childId := by
  refine Stage.ownersEnd (fun b => b.FailedBelow parentId childId) stage below finishes ?_ ?_ ends
  · exact fun below settles => below.settles settles
  · intro b after owner admitted below ends enters
    exact below.ownerEnds ends (fun job member => leaves now job (enters job member))

/-- A step keeps the failure below a retained parent, unless it takes the child back, by cases on
its change.
-/
theorem failedBelow_step (cron : Cron) (find : Find) (queue : QueueName) (fresh : FreshIds s op)
    (below : s.board.FailedBelow parentId childId)
    (retained : ∃ card, s.board.cards parentId = some card)
    (apart : op.clearsChild ≠ some childId)
    (leaves : ∀ now job, s.MayEnter op now job → Board.LeavesFailure parentId childId job)
    : (step cron find queue s op).board.FailedBelow parentId childId := by
  have change := change_step cron find queue s op
  generalize (step cron find queue s op).board = after at change ⊢
  cases change with
  | settled settles => exact below.settles settles
  | disowned =>
      refine ⟨?_, ?_⟩
      · intro card found
        rw [Board.disown_cards] at found
        split at found
        · next isOwner =>
            obtain ⟨old, shown, rfl⟩ := Option.map_eq_some_iff.mp found
            exact below.listed old (isOwner ▸ shown)
        · exact below.listed card found
      · intro card found named
        rw [Board.disown_cards] at found
        split at found
        · next isOwner =>
            obtain ⟨old, shown, rfl⟩ := Option.map_eq_some_iff.mp found
            exact below.failed old (isOwner ▸ shown) named
        · exact below.failed card found named
  | detached _ _ settles =>
      refine Board.FailedBelow.settles ?_ settles
      exact below.detached (fun same => apart (congrArg some same.symm))
  | @retried jobId now job _ enqueuedSeq found _ settles =>
      refine Board.FailedBelow.settles (below.put ?_ ?_) settles
      · rintro rfl
        have member := below.listed _ (board_cards_of_get found)
        exact member
      · exact fun same _ => absurd (congrArg some same) apart
  | submitted submits => exact (submits.failedBelow below retained).1
  | submittedEach each => exact each.failedBelow below retained
  | upserted admits => exact below.enter admits retained
  | sifted _ _ sifts => exact below.retimes sifts.retimes
  | coalesced _ _ _ coalesces => exact below.retimes coalesces.retimes
  | @joined _ above _ _ p old parentCard _ submits retimed gathers links _ ended settles =>
      have sifted := below.retimes gathers.sifts.retimes
      have listed (same : above = parentId) : childId ∈ old.childIds := by
        rw [same] at retimed
        exact sifted.listed old retimed
      refine Board.FailedBelow.settles (below.filled gathers retained listed ?_ ?_) settles
      · intro same
        rw [links]
        exact gathers.listsExisting childId (listed same)
      · intro same named
        rw [same] at retimed
        have before : old.parentId = some parentId := by
          rw [← named, links]
        obtain ⟨phase, policy⟩ := sifted.failed old retimed before
        refine ⟨?_, ?_⟩
        · rw [ended (by rw [phase]; rfl), phase]
        · rw [links]
          exact policy
  | @created _ _ _ parentJob _ _ _ _ _ _ records absent gathers _ _ links _ settles =>
      have apart : parentJob.id ≠ parentId := by
        rintro rfl
        obtain ⟨card, found⟩ := retained
        rw [absent] at found
        cases found
      refine Board.FailedBelow.settles (below.filled gathers retained ?_ ?_ ?_) settles
      · exact fun same => absurd same apart
      · exact fun same => absurd same apart
      · intro _ named
        rw [links, show parentJob.freshCard.parentId = none from records.parentless] at named
        cases named
  | concluded removes _ finishes retires ends settles =>
      have stage := Stage.of_retires retires finishes
      have finished := fun owner member => (finishes owner (removes owner)).mpr ⟨member, rfl⟩
      have kept := stage.failedBelow (below.settles retires.settles) finished leaves ends
      exact kept.settles settles
  | @continued _ now _ next _ _ _ _ _ _ _ generated succeeds retires _ kept settles =>
      refine Board.FailedBelow.settles ?_ settles
      refine ((below.settles retires.settles).settles kept).put ?_ ?_
      · rintro rfl
        obtain ⟨card, found⟩ := retained
        rw [absent_of_fresh fresh generated] at found
        cases found
      · intro _ named
        have parentless : next.freshCard.parentId = none := succeeds.submitted.parentless
        rw [parentless] at named
        cases named

end InMemoryJobQueueState

-----------------------------------------------------------------------------------------
-- The failure in the side index
-----------------------------------------------------------------------------------------

namespace Shelf

/-- The failure of the child is filed with the parent, as long as the parent is retained. -/
def Records (f : Shelf) (parentId childId : JobId) : Prop :=
  f.retained parentId = true → ∃ index, f.filed parentId = some index ∧ childId ∈ index.failed

end Shelf

/-- Nothing comes from the source that would replace the parent or file anything else for the
child.
-/
structure Source.Spares (o : Source) (parentId childId : JobId) : Prop where
  enters : ¬ o.enters parentId
  reports
    : ∀ child,
        o.reports parentId child
        → child.id = childId
        → child.filedResult = some .failed ∧ failurePolicy child ≠ .releaseDependency
  clears : ¬ o.clears parentId childId

/-- Ids enter, and nothing is reported or taken back. -/
def Source.entering (enters : JobId → Prop) : Source :=
  { enters, reports := fun _ _ => False, clears := fun _ _ => False }

theorem Source.entering_spares {enters : JobId → Prop} {parentId childId : JobId}
    (unentered : ¬ enters parentId)
    : (entering enters).Spares parentId childId where
  enters := unentered
  reports _ impossible := impossible.elim
  clears := id

namespace InMemoryFlowDependencyIndex

variable {index : InMemoryFlowDependencyIndex} {childId other : JobId}

theorem failed_file (result : FiledResult) (failed : childId ∈ index.failed)
    (spared : other = childId → result = .failed)
    : childId ∈ (index.file other result).failed := by
  cases result with
  | failed => exact Finset.mem_insert_of_mem failed
  | processed value =>
      refine Finset.mem_erase.mpr ⟨fun same => ?_, failed⟩
      cases spared same.symm
  | ignored failedReason =>
      refine Finset.mem_erase.mpr ⟨fun same => ?_, failed⟩
      cases spared same.symm

theorem failed_clear (failed : childId ∈ index.failed) (different : other ≠ childId)
    : childId ∈ (index.clear other).failed := by
  unfold clear
  split
  · exact failed
  · split
    · exact failed
    · exact Finset.mem_erase.mpr ⟨different.symm, failed⟩

/-- An index with a failure is kept. -/
theorem kept_of_failed (failed : childId ∈ index.failed) : index.kept = some index := by
  unfold kept
  rw [if_neg]
  intro empty
  unfold isEmpty at empty
  simp only [Bool.and_eq_true, decide_eq_true_eq] at empty
  rw [empty.2] at failed
  cases failed

end InMemoryFlowDependencyIndex

section

variable {o : Source} {f g : Shelf} {parentId childId : JobId}

/-- A filing that spares the failure keeps it, by cases on the filing. -/
theorem Filing.records (files : Filing o f g) (records : f.Records parentId childId)
    (spares : o.Spares parentId childId)
    : g.Records parentId childId := by
  have put {other : JobId} {index : Option InMemoryFlowDependencyIndex}
      (written
        : other = parentId
          → f.retained parentId = true
          → ∃ stored, index = some stored ∧ childId ∈ stored.failed)
      : (f.put other index).Records parentId childId := by
    intro retained
    simp only [Shelf.put, Function.update_apply]
    split
    · next same => exact written same.symm retained
    · exact records retained
  cases files with
  | @entered id enters =>
      have apart : parentId ≠ id := fun same => spares.enters (same ▸ enters)
      intro retained
      simp only [Shelf.enter, Function.update_apply, if_neg apart] at retained
      exact records retained
  | @left id =>
      intro retained
      simp only [Shelf.leave, Function.update_apply] at retained ⊢
      split at retained
      · cases retained
      · next apart =>
          rw [if_neg apart]
          exact records retained
  | emptied =>
      intro retained
      cases retained
  | @filed other child result reports result_eq =>
      refine put ?_
      rintro rfl retained
      obtain ⟨index, filed, failed⟩ := records retained
      refine ⟨_, rfl, ?_⟩
      rw [filed]
      refine InMemoryFlowDependencyIndex.failed_file result failed ?_
      intro same
      have filesFailure := (spares.reports child reports same).1
      rw [result_eq] at filesFailure
      exact Option.some.inj filesFailure
  | @dropped other child index found reports policy =>
      refine put ?_
      rintro rfl retained
      obtain ⟨stored, filed, failed⟩ := records retained
      rw [found] at filed
      obtain rfl := Option.some.inj filed
      have still : childId ∈ (index.clear child.id).failed :=
        InMemoryFlowDependencyIndex.failed_clear failed
          (fun same => (spares.reports child reports same).2 policy)
      exact ⟨_, InMemoryFlowDependencyIndex.kept_of_failed still, still⟩
  | @cleared other cleared index found clears =>
      refine put ?_
      rintro rfl retained
      obtain ⟨stored, filed, failed⟩ := records retained
      rw [found] at filed
      obtain rfl := Option.some.inj filed
      have still : childId ∈ (index.clear cleared).failed :=
        InMemoryFlowDependencyIndex.failed_clear failed
          (fun same => spares.clears (same ▸ clears))
      exact ⟨_, InMemoryFlowDependencyIndex.kept_of_failed still, still⟩

theorem Filings.records (files : Filings o f g) (records : f.Records parentId childId)
    (spares : o.Spares parentId childId)
    : g.Records parentId childId :=
  files.invariant (fun f => f.Records parentId childId) records
    (fun records filing => filing.records records spares)

end

-----------------------------------------------------------------------------------------
-- Steps
-----------------------------------------------------------------------------------------

/-- Options that fail the parent have no milder policy as well. -/
def JobOptions.FailsParentOnly (options : JobOptions) : Prop :=
  options.failParentOnFailure = true
    → options.ignoreDependencyOnFailure = false ∧ options.continueParentOnFailure = false

theorem failsParent_of_policy {job : Job} (policy : failurePolicy job = .deferParent)
    : job.options.failParentOnFailure = true := by
  unfold failurePolicy at policy
  split at policy
  · assumption
  · split at policy
    · cases policy
    · split at policy <;> cases policy

/-- A failed child that fails its parent files its failure. -/
theorem Job.filedResult_failed {child : Job} (state : child.state = .failed)
    (policy : failurePolicy child = .deferParent) (exclusive : child.options.FailsParentOnly)
    : child.filedResult = some .failed := by
  have fails := failsParent_of_policy policy
  obtain ⟨ignores, continues⟩ := exclusive fails
  unfold filedResult
  rw [state]
  simp only [ignores, continues, fails, Bool.or_self, Bool.false_eq_true, if_false, if_true]

namespace InMemoryJobQueueState

variable {s : InMemoryJobQueueState} {op : Op} {job : Job} {now : DateTime}
  {parentId childId : JobId}

/-- What an operation files spares a failure below a retained parent, unless it takes the child
back or replaces the parent.
-/
theorem spares_source (queue : QueueName) (fresh : FreshIds s op)
    (below : s.board.FailedBelow parentId childId)
    (retained : ∃ card, s.board.cards parentId = some card)
    (exclusive : ∀ {id job}, s.jobs.get id = some job → job.options.FailsParentOnly)
    (apart : op.clearsChild ≠ some childId) (unoffered : ¬ s.MayOffer op parentId)
    : (s.source queue op).Spares parentId childId where
  enters := by
    obtain ⟨card, found⟩ := retained
    rintro (childless | offered | generated)
    · have member := below.listed card found
      rw [childless card found] at member
      cases member
    · exact unoffered offered
    · rw [absent_of_fresh fresh generated] at found
      cases found
  reports := by
    have failed {old : Job} (known : s.jobs.get childId = some old)
        (named : old.parentId = some parentId)
        : old.state = .failed ∧ failurePolicy old = .deferParent := by
      obtain ⟨phase, policy⟩ := below.failed _ (board_cards_of_get known) named
      exact ⟨JobState.phase_eq_failed.mp phase, policy⟩
    rintro child (⟨_, job, _, finishes, ties, named⟩ | ⟨children, _, _, attaches⟩) same
    · obtain ⟨found, active⟩ := finishes.active
      rw [ties.id.symm.trans same] at found
      rw [(failed found named).1] at active
      cases active
    · obtain ⟨_, old, found, state, options, listing⟩ := attaches
      rw [same] at found listing
      obtain ⟨card, shown⟩ := retained
      obtain ⟨parent, known, rfl⟩ := board_cards_some shown
      obtain ⟨stays, policy⟩ := failed found (listing parent known (below.listed _ shown))
      have samePolicy : failurePolicy child = .deferParent := by
        rw [← policy]
        unfold failurePolicy childFailureReleasesDependency
        rw [options]
      refine ⟨Job.filedResult_failed (state.trans stays) samePolicy ?_, ?_⟩
      · rw [options]
        exact exclusive found
      · rw [samePolicy]
        exact nofun
  clears := apart

/-- A child whose failure is recorded with a parent that lists it is on record there. -/
theorem records_recordTerminalChildDependencyLocked {child : Job}
    (result : child.filedResult = some .failed)
    (listed : ∀ card, s.board.cards parentId = some card → child.id ∈ card.childIds)
    : (s.recordTerminalChildDependencyLocked parentId child).shelf.Records parentId child.id := by
  unfold recordTerminalChildDependencyLocked
  split
  · next absent =>
      intro retained
      obtain ⟨parent, found⟩ := JobMap.containsKey_eq_true.mp retained
      rw [absent] at found
      cases found
  · next parent found =>
      have member : child.id ∈ parent.childIds := listed _ (board_cards_of_get found)
      rw [if_neg (by simpa using member)]
      have recorded
          : (s.recordFailedChildDependencyLocked parentId child.id).shelf.Records parentId
              child.id := by
        intro _
        unfold recordFailedChildDependencyLocked
        rw [shelf_updateIndex]
        simp only [Shelf.put, Function.update_self]
        exact ⟨_, rfl, Finset.mem_insert_self _ _⟩
      unfold Job.filedResult at result
      cases state : child.state with
      | failed =>
          rw [state] at result
          simp only at result ⊢
          by_cases reported
            : (child.options.ignoreDependencyOnFailure || child.options.continueParentOnFailure)
              = true
          · rw [if_pos reported] at result
            cases result
          · by_cases fails : child.options.failParentOnFailure = true
            · rw [if_neg reported, if_pos fails]
              exact recorded
            · rw [if_neg reported, if_neg fails] at result
              cases result
      | _ =>
          rw [state] at result
          cases result

-----------------------------------------------------------------------------------------
-- The failure itself
-----------------------------------------------------------------------------------------

/-- The operation fails the job for good: no attempt is left after a reported failure, or the job
stalled once too often.
-/
inductive FailsTerminally (s : InMemoryJobQueueState) : Op → DateTime → Job → Prop
  | reported {op : Op} {jobId : JobId} {lockToken : JobLockToken} {error : String}
    {now : DateTime} {allowRetry : Bool} {job : Job}
    (ends : op.endsLease = some (jobId, lockToken))
    (reports : op.reportsFailure = some (error, now, allowRetry))
    (accepted : s.requireOwnedActive jobId lockToken "fail" = .ok job)
    (terminal : failsTerminally job allowRetry = true)
    : FailsTerminally s op now job
  | stalled {now : DateTime} {job : Job} (found : s.jobs.get job.id = some job)
    (expired : leaseExpired now job = true) (terminal : stallsTerminally job = true)
    : FailsTerminally s (.recoverStalledJobs now) now job

theorem FailsTerminally.finishes (fails : s.FailsTerminally op now job)
    : s.Finishes op now job job.options.removesFailedImmediately := by
  cases fails with
  | reported ends reports accepted terminal => exact .fails ends reports accepted terminal
  | stalled found expired terminal => exact .stalls found expired terminal

theorem step_of_reportsFailure (cron : Cron) (find : Find) (queue : QueueName) {jobId : JobId}
    {lockToken : JobLockToken} {error : String} {allowRetry : Bool}
    (ends : op.endsLease = some (jobId, lockToken))
    (reports : op.reportsFailure = some (error, now, allowRetry))
    : step cron find queue s op = (s.failActiveJob jobId lockToken error now allowRetry).1 := by
  cases op with
  | failJob =>
      cases ends
      cases reports
      rfl
  | failJobDiscardingRetry =>
      cases ends
      cases reports
      rfl
  | _ => cases reports

/-- A listed child that fails its parent and leaves the unfinished phases as failed. -/
theorem failedBelow_of_failed {b settled : Board}
    (listed : ∀ card, b.cards parentId = some card → childId ∈ card.childIds)
    (policy : ∀ card, b.cards childId = some card → card.policy = .deferParent)
    (settles : b.Settles settled)
    (failed : ∀ card, settled.cards childId = some card → card.phase = .failed)
    : settled.FailedBelow parentId childId where
  listed card found := by
    obtain ⟨old, shown, same, _⟩ := settles.card found
    rw [same.childIds]
    exact listed old shown
  failed card found _ := by
    obtain ⟨old, shown, same, _⟩ := settles.card found
    exact ⟨failed card found, same.policy.trans (policy old shown)⟩

/-- The jobs that a recovery fails show as failed once it has swept them. -/
theorem failed_sweptStalled {job : Job} (member : job ∈ s.stalledForGood now) {card : Card}
    (found : (s.sweptStalled now).board.cards job.id = some card)
    : card.phase = .failed := by
  rw [board_sweptStalled] at found
  obtain ⟨_, shown⟩ := Board.without_cards_some found
  simp only [Board.sweep, if_pos (List.mem_map_of_mem member)] at shown
  obtain ⟨old, _, rfl⟩ := Option.map_eq_some_iff.mp shown
  rfl

/-- A child that a recovery fails is failed once the recovery has swept its jobs. -/
theorem failedBelow_sweptStalled (member : job ∈ s.stalledForGood now)
    (policy : failurePolicy job = .deferParent)
    (listed : ∀ card, s.board.cards parentId = some card → job.id ∈ card.childIds)
    : (s.sweptStalled now).board.FailedBelow parentId job.id := by
  have retires := retires_recoverStalledJobs s now
  rw [← board_sweptStalled] at retires
  refine failedBelow_of_failed listed ?_ retires.settles
    (fun card found => failed_sweptStalled member found)
  intro card found
  rw [board_cards_of_get (mem_stalledForGood.mp member).1] at found
  obtain rfl := Option.some.inj found
  exact policy

/-- A recovery that has swept its jobs is about to end its owners. -/
theorem stage_sweptStalled (s : InMemoryJobQueueState) (now : DateTime)
    : s.Stage (.recoverStalledJobs now) (s.sweptStalled now).board := by
  have retires := retires_recoverStalledJobs s now
  rw [← board_sweptStalled] at retires
  exact .of_retires retires (fun _ _ => finishes_recoverStalledJobs)

/-- A child that fails for good below a parent that lists it stays failed over the step. -/
theorem FailsTerminally.failedBelow (fails : s.FailsTerminally op now job) (cron : Cron) (find : Find)
    (queue : QueueName) (policy : failurePolicy job = .deferParent)
    (listed : ∀ card, s.board.cards parentId = some card → job.id ∈ card.childIds)
    (leaves : ∀ now next, s.MayEnter op now next → Board.LeavesFailure parentId job.id next)
    : (step cron find queue s op).board.FailedBelow parentId job.id := by
  have finishes := fails.finishes
  have policies : ∀ card, s.board.cards job.id = some card → card.policy = .deferParent := by
    intro card found
    rw [board_cards_of_get finishes.active.1] at found
    obtain rfl := Option.some.inj found
    exact policy
  cases fails with
  | @reported _ _ _ error _ _ _ ends reports accepted terminal =>
      obtain rfl := JobMap.get_id (requireOwnedActive_ok accepted).1
      rw [step_of_reportsFailure cron find queue ends reports]
      rcases @board_failActiveJob_of_owned _ _ _ now _ error _ accepted with
        ⟨retried, _⟩ | ⟨_, settled, admitted, ended, pruned, gone, owner, told⟩
      · rw [retried] at terminal
        cases terminal
      · have retires
            : s.board.Retires [job] (fun job => job.options.removesFailedImmediately) settled :=
          Board.retires_of_move rfl finishes.unfinished pruned gone
        have stage := Stage.of_retires retires (finishes_reported ends reports accepted terminal)
        have start : settled.FailedBelow parentId job.id := by
          refine failedBelow_of_failed listed policies retires.settles (fun card found => ?_)
          have moved := pruned.cards_some found
          rw [Board.move_cards, if_pos rfl] at moved
          obtain ⟨old, _, rfl⟩ := Option.map_eq_some_iff.mp moved
          rfl
        refine (start.ownerEnds owner ?_).settles told.settles
        exact fun next member => leaves now next (stage.mayEnter finishes owner next member)
  | @stalled _ _ found expired terminal =>
      obtain ⟨ended, owners, told⟩ := board_recoverStalledJobs s now
      rw [← board_sweptStalled] at owners
      have member : job ∈ s.stalledForGood now := mem_stalledForGood.mpr ⟨found, expired, terminal⟩
      have start := failedBelow_sweptStalled member policy listed
      have kept := (stage_sweptStalled s now).failedBelow start
        (fun owner member => finishes_recoverStalledJobs.mpr ⟨member, rfl⟩) leaves owners
      exact kept.settles told.settles

/-- The loop of a recovery records the failure of the child when its turn comes and keeps it on
record, by induction on the failures.
-/
theorem records_settleStalledFailures {t : InMemoryJobQueueState} {failures : List Job}
    (stage : s.Stage op t.board) (below : t.board.FailedBelow parentId childId)
    (finishes
      : ∀ failed ∈ failures,
          ∃ job removes, s.Finishes op now job removes ∧ failed.SameTies job)
    (reports
      : ∀ failed ∈ failures,
          failed.id = childId
          → failed.parentId = some parentId ∧ failed.filedResult = some .failed)
    (leaves : ∀ now next, s.MayEnter op now next → Board.LeavesFailure parentId childId next)
    (unoffered : ¬ s.MayOffer op parentId)
    (recorded : childId ∈ failures.map Job.id ∨ t.shelf.Records parentId childId)
    : (failures.foldl (settleStalledFailure now) t).shelf.Records parentId childId := by
  induction failures generalizing t with
  | nil => exact recorded.resolve_left List.not_mem_nil
  | cons failed rest ih =>
      obtain ⟨job, removes, finished, ties⟩ := finishes failed List.mem_cons_self
      obtain ⟨admitted, middle, ends, pruned⟩ := ownerEnds_settleStalledFailure now t failed
      have enters := stage.mayEnter finished (ends.of_sameTies ties)
      have nextStage := (stage.ownerEnds ends).pruned pruned
      have nextBelow := (below.ownerEnds ends
        (fun next member => leaves now next (enters next member))).settles pruned.settles
      refine ih nextStage nextBelow (fun other member => finishes other (List.mem_cons_of_mem _ member))
        (fun other member => reports other (List.mem_cons_of_mem _ member)) ?_
      have elsewhere
          : ∀ jobs, t.board.Candidate failed now jobs →
              ∀ job ∈ jobs, (Source.entering (· ≠ parentId)).enters job.id := by
        intro jobs candidate next member same
        have before := candidate_of_kept (candidate.of_sameTies ties) stage.next stage.nextFlows
        exact unoffered ⟨now, job, removes, jobs, finished, before, next, member, same⟩
      have behind := files_settleStalledFailure elsewhere
      have spares : (Source.entering (· ≠ parentId)).Spares parentId childId :=
        Source.entering_spares (fun different => different rfl)
      by_cases same : failed.id = childId
      · obtain ⟨named, result⟩ := reports failed List.mem_cons_self same
        rw [named] at behind
        refine .inr (behind.records ?_ spares)
        rw [← same]
        refine records_recordTerminalChildDependencyLocked result ?_
        rw [same]
        exact below.listed
      · rcases recorded with member | records
        · rw [List.map_cons, List.mem_cons] at member
          exact .inl (member.resolve_left (fun equal => same equal.symm))
        · refine .inr (behind.records ?_ spares)
          let reporting : Source :=
            { enters := fun _ => False
              reports := fun _ child => child = failed
              clears := fun _ _ => False }
          have reports : ∀ owner, failed.parentId = some owner → reporting.reports owner failed :=
            fun _ _ => rfl
          refine (files_recordTerminalChild reports).records records ⟨id, ?_, id⟩
          intro child isFailed equal
          have sameId : child.id = failed.id := congrArg Job.id isFailed
          exact absurd (sameId.symm.trans equal) same

/-- A child that fails for good below a parent that lists it is on record after the step. -/
theorem FailsTerminally.records (fails : s.FailsTerminally op now job) (cron : Cron) (find : Find)
    (queue : QueueName) (named : job.parentId = some parentId)
    (policy : failurePolicy job = .deferParent) (exclusive : job.options.FailsParentOnly)
    (listed : ∀ card, s.board.cards parentId = some card → job.id ∈ card.childIds)
    (leaves : ∀ now next, s.MayEnter op now next → Board.LeavesFailure parentId job.id next)
    (unoffered : ¬ s.MayOffer op parentId)
    : (step cron find queue s op).shelf.Records parentId job.id := by
  have finishes := fails.finishes
  have spares : (Source.entering (· ≠ parentId)).Spares parentId job.id :=
    Source.entering_spares (fun different => different rfl)
  have result {failed : Job} (ties : failed.SameTies job) (state : failed.state = .failed)
      : failed.filedResult = some .failed := by
    refine Job.filedResult_failed state (ties.policy.trans policy) ?_
    rw [ties.options]
    exact exclusive
  cases fails with
  | @reported _ _ _ error _ allowRetry _ ends reports accepted terminal =>
      obtain rfl := JobMap.get_id (requireOwnedActive_ok accepted).1
      have ties : (failedJob job error now allowRetry).SameTies job := failedJob_ties
      have state := failedJob_state job error now allowRetry
      have moved
          : (s.setJob (failedJob job error now allowRetry)).board
            = s.board.move job.id (if failsTerminally job allowRetry then .failed else .ready) :=
        board_setJob_move finishes.active.1 ties.id card_failedJob
      rw [step_of_reportsFailure cron find queue ends reports, shelf_failActiveJob accepted]
      simp only [if_pos terminal] at state moved ⊢
      generalize failedJob job error now allowRetry = failed at ties state moved ⊢
      have ended : ¬ (s.setJob failed).board.Unfinished failed.id := by
        have stored : (s.setJob failed).jobs.get failed.id = some failed := by
          simp only [setJob, JobMap.get_insert, if_pos]
        rw [board_unfinished_iff stored, state]
        exact Bool.noConfusion
      have elsewhere
          : ∀ jobs, (s.setJob failed).board.Candidate failed now jobs →
              ∀ job ∈ jobs, (Source.entering (· ≠ parentId)).enters job.id := by
        intro jobs candidate next member same
        rw [moved] at candidate
        have before : s.board.Candidate job now jobs :=
          candidate_of_kept (candidate.of_sameTies ties) id id
        exact unoffered ⟨now, job, _, jobs, finishes, before, next, member, same⟩
      have behind := files_settleTerminalFailure ended elsewhere
      rw [ties.parentId, named] at behind
      refine behind.records ?_ spares
      rw [← ties.id]
      refine records_recordTerminalChildDependencyLocked (result ties state) ?_
      intro card found
      rw [moved, Board.move_cards] at found
      rw [ties.id]
      split at found
      · next same =>
          obtain ⟨old, shown, rfl⟩ := Option.map_eq_some_iff.mp found
          exact listed old (same ▸ shown)
      · exact listed card found
  | @stalled _ _ found expired terminal =>
      obtain ⟨_, behind⟩ := files_aroundStalledFailures (.entering (· ≠ parentId)) s now
      refine behind.records ?_ spares
      have member : job ∈ s.stalledForGood now := mem_stalledForGood.mpr ⟨found, expired, terminal⟩
      refine records_settleStalledFailures (stage_sweptStalled s now)
        (failedBelow_sweptStalled member policy listed) ?_ ?_ leaves unoffered (.inl ?_)
      · intro failed isFailed
        obtain ⟨job, finished, ties⟩ := finishes_of_stalledFailures isFailed
        exact ⟨job, _, finished, ties⟩
      · intro failed isFailed same
        obtain ⟨other, isStalled, rfl⟩ := List.mem_map.mp isFailed
        have ties := stalledJob_ties other now
        have known := (mem_stalledForGood.mp isStalled).1
        rw [← ties.id, same, found] at known
        obtain rfl := Option.some.inj known
        refine ⟨ties.parentId.trans named, result ties ?_⟩
        rw [stalledJob_state, if_pos terminal]
      · exact List.mem_map.mpr ⟨_, List.mem_map_of_mem member, (stalledJob_ties job now).id⟩

end InMemoryJobQueueState

end Lane
