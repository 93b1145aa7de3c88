import Lane.Board.Changes

/-! No job lists a child twice. -/

namespace Lane

namespace Board

/-- The child lists on the cards have no duplicates, and neither will the lists of the candidates
that are kept: jobs are kept without children, flows with distinct ones.
-/
structure ChildLists (b : Board) : Prop where
  card : ∀ {id card}, b.cards id = some card → card.childIds.Nodup
  next : ∀ {key job}, b.next key = some job → job.childIds = []
  nextFlows : ∀ {key flow}, b.nextFlows key = some flow → (flow.children.map Job.id).Nodup

variable {b after : Board} {id parentId : JobId} {job : Job} {now : DateTime}

theorem childLists_empty : empty.ChildLists where
  card found := by cases found
  next stored := by cases stored
  nextFlows stored := by cases stored

namespace ChildLists

theorem settles (lists : b.ChildLists) (settles : b.Settles after) : after.ChildLists where
  card found := by
    obtain ⟨old, shown, same, _⟩ := settles.card found
    rw [same.childIds]
    exact lists.card shown
  next stored := lists.next (settles.next stored)
  nextFlows stored := lists.nextFlows (settles.nextFlows stored)

/-- A card that is put lists no child twice. -/
theorem put (lists : b.ChildLists) {card : Card} (distinct : card.childIds.Nodup)
    : (b.put id card).ChildLists where
  card found := by
    rw [put_cards] at found
    split at found
    · obtain rfl := Option.some.inj found
      exact distinct
    · exact lists.card found
  next := lists.next
  nextFlows := lists.nextFlows

theorem retimes (lists : b.ChildLists) (retimes : b.Retimes after)
    {card : Card} (found : after.cards id = some card)
    : card.childIds.Nodup := by
  obtain ⟨old, shown, same⟩ := retimes.card_before found
  have distinct := lists.card shown
  have untimed : old.untimed.childIds.Nodup := distinct
  rw [← same] at untimed
  exact untimed

theorem enter (lists : b.ChildLists) {replaced : Option JobId} (admits : b.Admits now replaced job)
    : (b.enter replaced job).ChildLists where
  card found := by
    rcases enter_card_before found with ⟨_, rfl⟩ | ⟨_, _, shown⟩
    · have childless : job.freshCard.childIds = [] := admits.childless
      rw [childless]
      exact List.nodup_nil
    · exact lists.card shown
  next := lists.next
  nextFlows := lists.nextFlows

theorem coalesces (lists : b.ChildLists) {key : String} {ownerId : JobId}
    {keepsJob : Job → Prop} {keepsFlow : JobFlow → Prop}
    (coalesces : b.Coalesces key ownerId keepsJob keepsFlow after)
    (jobs : ∀ job, keepsJob job → job.childIds = [])
    (flows : ∀ flow, keepsFlow flow → (flow.children.map Job.id).Nodup)
    : after.ChildLists := by
  refine ⟨fun found => lists.retimes coalesces.retimes found, ?_, ?_⟩
  · intro other kept stored
    cases coalesces with
    | ignored => exact lists.next stored
    | @keptJob job allowed =>
        simp only [expire_next, Board.keep, Function.update_apply] at stored
        split at stored
        · obtain rfl := Option.some.inj stored
          exact jobs job allowed
        · exact lists.next stored
    | keptFlow =>
        simp only [expire_next, Board.keep, Function.update_apply] at stored
        split at stored
        · cases stored
        · exact lists.next stored
    | extended => exact lists.next stored
  · intro other kept stored
    cases coalesces with
    | ignored => exact lists.nextFlows stored
    | keptJob =>
        simp only [expire_nextFlows, Board.keep, Function.update_apply] at stored
        split at stored
        · cases stored
        · exact lists.nextFlows stored
    | @keptFlow flow allowed =>
        simp only [expire_nextFlows, Board.keep, Function.update_apply] at stored
        split at stored
        · obtain rfl := Option.some.inj stored
          exact flows flow allowed
        · exact lists.nextFlows stored
    | extended => exact lists.nextFlows stored

/-- The children that a loop keeps are childless. -/
theorem sifts (lists : b.ChildLists) {children : List Job} {kept : String → Option Job}
    (childless : ∀ child ∈ children, child.childIds = [])
    (sifts : b.Sifts now children kept after)
    : after.ChildLists where
  card found := lists.retimes sifts.retimes found
  next {key stored} found := by
    rw [sifts.next key] at found
    cases submitted : kept key with
    | none =>
        rw [submitted] at found
        exact lists.next found
    | some child =>
        rw [submitted] at found
        obtain rfl := Option.some.inj found
        exact childless child (sifts.keptChild submitted).1
  nextFlows {key stored} found := by
    rw [sifts.nextFlows key] at found
    split at found
    · cases found
    · exact lists.nextFlows found

/-- Filling a plan writes the plan's own list, and its children enter childless. -/
theorem filled (lists : b.ChildLists) {submitted : Bool} {children : List Job}
    {existingIds : List JobId} {p : FlowPlan} {parentCard : Card}
    (gathers : b.Gathers now submitted parentId children existingIds p)
    (existing : existingIds.Nodup) (listed : parentCard.childIds = p.childIds)
    : (p.filled parentId parentCard).ChildLists := by
  have sifted := lists.sifts gathers.records.childless gathers.sifts
  refine ⟨?_, ?_, ?_⟩
  · intro id card found
    rcases gathers.card_before found with
      ⟨_, rfl⟩ | ⟨old, shown, _, ⟨_, rfl⟩ | ⟨_, rfl⟩⟩ | ⟨child, inserted, _, rfl⟩
    · rw [listed]
      exact gathers.listsOnce existing
    · exact sifted.card shown
    · have distinct := sifted.card shown
      exact distinct
    · have childless : child.freshCard.childIds = [] :=
        gathers.records.childless child (gathers.inserted child inserted).1
      rw [childless]
      exact List.nodup_nil
  · intro key kept stored
    simp only [FlowPlan.filled, putAll_next, attach_next, put_next] at stored
    exact sifted.next stored
  · intro key kept stored
    simp only [FlowPlan.filled, putAll_nextFlows, attach_nextFlows, put_nextFlows] at stored
    exact sifted.nextFlows stored

/-- What enters at the end of an owner lists the children that were kept with it. -/
theorem admitted (lists : b.ChildLists) {owner : Job} {jobs : List Job}
    (ends : b.OwnerEnds owner now jobs after)
    : ∀ job ∈ jobs, job.childIds.Nodup := by
  cases ends with
  | keyless => simp
  | dropped => simp
  | @job key candidate next repeatNextCount own stored counted prepared absent =>
      intro job member
      obtain rfl := List.mem_singleton.mp member
      have childless : job.childIds = candidate.childIds := by
        rw [prepared]
        unfold nextKeepLastJob
        simp only
        split <;> rfl
      rw [childless, lists.next stored]
      exact List.nodup_nil
  | @flow key stored flow own kept prepared absent =>
      intro job member
      rcases List.mem_cons.mp member with rfl | member
      · have listed : flow.parent.childIds = stored.children.map Job.id := by
          rw [prepared]
          unfold prepareDeduplicatedNextFlow
          simp only
          split <;> rfl
        rw [listed]
        exact lists.nextFlows kept
      · rw [prepared] at member
        obtain ⟨child, _, rfl⟩ := List.mem_map.mp member
        exact List.nodup_nil

theorem ownerEnds (lists : b.ChildLists) {owner : Job} {jobs : List Job}
    (ends : b.OwnerEnds owner now jobs after)
    : after.ChildLists where
  card found := by
    rcases ends.card_before found with ⟨old, shown, origin⟩ | ⟨job, member, _, rfl, _⟩
    · rcases origin with rfl | ⟨next, _, _, unlisted, rfl⟩
      · exact lists.card shown
      · exact (lists.card shown).append (List.nodup_singleton _) (by simpa using unlisted)
    · exact lists.admitted ends job member
  next stored := lists.next (ends.kept.1 stored)
  nextFlows stored := lists.nextFlows (ends.kept.2 stored)

end ChildLists

/-- Owners that end in turn, by induction on them. -/
theorem ChildLists.ownersEnd (lists : b.ChildLists) {owners : List Job}
    (ends : OwnersEnd now b owners after)
    : after.ChildLists := by
  induction ends with
  | nil => exact lists
  | cons ends pruned _ ih => exact ih ((lists.ownerEnds ends).settles pruned.settles)

end Board

namespace InMemoryJobQueueState

variable {s : InMemoryJobQueueState} {after : Board} {find : Find} {job : Job} {now : DateTime}

theorem Submits.childLists (submits : s.Submits job now after) (lists : s.board.ChildLists)
    (childless : job.childIds = [])
    : after.ChildLists := by
  cases submits with
  | answered => exact lists
  | admitted _ _ admits _ => exact lists.enter admits
  | coalesced _ _ coalesces =>
      refine lists.coalesces coalesces ?_ (fun _ impossible => impossible.elim)
      rintro _ rfl
      exact childless

/-- Jobs that are submitted in turn, by induction on them. -/
theorem SubmitsEach.childLists {jobs : List Job} {t : InMemoryJobQueueState}
    (each : SubmitsEach find now s jobs t) (lists : s.board.ChildLists)
    (childless : ∀ job ∈ jobs, job.childIds = [])
    : t.board.ChildLists := by
  induction each with
  | nil => exact lists
  | cons submits _ ih =>
      refine ih (submits.childLists lists (childless _ List.mem_cons_self)) ?_
      exact fun job member => childless job (List.mem_cons_of_mem _ member)

/-- A step lists no child twice, by cases on its change. -/
theorem childLists_step (cron : Cron) (find : Find) (queue : QueueName)
    {s : InMemoryJobQueueState} (op : Op) (lists : s.board.ChildLists)
    : (step cron find queue s op).board.ChildLists := by
  have change := change_step cron find queue s op
  generalize (step cron find queue s op).board = after at change ⊢
  cases change with
  | settled settles => exact lists.settles settles
  | disowned =>
      refine ⟨?_, ?_, ?_⟩
      · intro id card found
        rw [Board.disown_cards] at found
        split at found
        · obtain ⟨old, shown, rfl⟩ := Option.map_eq_some_iff.mp found
          have distinct : old.childIds.Nodup := lists.card shown
          exact distinct
        · exact lists.card found
      · intro key kept stored
        simp only [Board.disown, Board.keep, Function.update_apply] at stored
        split at stored
        · cases stored
        · exact lists.next stored
      · intro key kept stored
        simp only [Board.disown, Board.keep, Function.update_apply] at stored
        split at stored
        · cases stored
        · exact lists.nextFlows stored
  | detached _ _ settles =>
      refine Board.ChildLists.settles ?_ settles
      refine ⟨?_, lists.next, lists.nextFlows⟩
      intro id card found
      obtain ⟨old, shown, rfl⟩ := Board.detached_card_before found
      dsimp only
      split
      · exact (lists.card shown).filter _
      · exact lists.card shown
  | @retried jobId now job _ enqueuedSeq found _ settles =>
      have distinct := lists.card (board_cards_of_get found)
      refine Board.ChildLists.settles ?_ settles
      exact lists.put distinct
  | submitted submits => exact submits.childLists lists rfl
  | submittedEach each =>
      refine each.childLists lists ?_
      intro job member
      obtain ⟨spec, _, rfl⟩ := List.mem_map.mp member
      rfl
  | upserted admits => exact lists.enter admits
  | sifted _ records sifts => exact lists.sifts records.childless sifts
  | coalesced records _ _ coalesces =>
      refine lists.coalesces coalesces (fun _ impossible => impossible.elim) ?_
      rintro _ rfl
      exact records.records.distinct
  | joined _ retimed gathers links _ _ settles =>
      have existing := lists.retimes gathers.sifts.retimes retimed
      exact (lists.filled gathers existing (by rw [links])).settles settles
  | created _ _ _ _ gathers _ _ links _ settles =>
      exact (lists.filled gathers List.nodup_nil (by rw [links])).settles settles
  | concluded _ _ _ retires ends settles =>
      exact ((lists.settles retires.settles).ownersEnd ends).settles settles
  | @continued _ _ _ next _ _ _ _ _ _ _ _ succeeds retires same kept settles =>
      refine Board.ChildLists.settles (Board.ChildLists.put ?_ ?_) settles
      · exact (lists.settles retires.settles).settles kept
      · have childless : next.freshCard.childIds = [] := succeeds.submitted.childless
        rw [childless]
        exact List.nodup_nil

end InMemoryJobQueueState

end Lane
