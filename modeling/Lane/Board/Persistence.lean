import Lane.Board.Effects

/-! What a card becomes, and where a card came from, across the compound effects. -/

namespace Lane

/-- The card may have got more listed children and is otherwise the old one. -/
def Card.Grown (old card : Card) : Prop :=
  ∃ more, card = { old with childIds := old.childIds ++ more }

theorem Card.Grown.refl (card : Card) : card.Grown card := ⟨[], by simp⟩

namespace Board

variable {b middle after : Board} {id parentId : JobId} {card : Card} {now : DateTime}
  {job : Job}

-----------------------------------------------------------------------------------------
-- Prunings and releases
-----------------------------------------------------------------------------------------

/-- A release moves at most the parked parent, and drops at most finished cards. -/
theorem Released.card_after (released : b.Released parentId after)
    (found : b.cards id = some card) (unfinished : card.phase.isTerminal = false)
    (apart : id ≠ parentId ∨ card.phase ≠ .parked)
    : after.cards id = some card := by
  have elsewhere {parent : Card} (shown : b.cards parentId = some parent)
      (parked : parent.phase = .parked)
      : id ≠ parentId := by
    rcases apart with different | unparked
    · exact different
    · rintro rfl
      rw [found] at shown
      obtain rfl := Option.some.inj shown
      exact unparked parked
  cases released with
  | kept => exact found
  | deferred shown parked => rw [move_cards_ne (elsewhere shown parked), found]
  | resolved shown parked => rw [move_cards_ne (elsewhere shown parked), found]
  | failed shown parked _ _ pruned =>
      exact pruned.cards_of_unfinished (by rw [move_cards_ne (elsewhere shown parked), found])
        unfinished

theorem ReleasedEach.card_after {parentIds : List JobId}
    (released : ReleasedEach b parentIds after) (found : b.cards id = some card)
    (unfinished : card.phase.isTerminal = false) (unparked : card.phase ≠ .parked)
    : after.cards id = some card := by
  induction released with
  | nil => exact found
  | cons released _ ih => exact ih (released.card_after found unfinished (.inr unparked))

/-- A card after a child was detached from its parent, on both sides of the link. -/
theorem detached_card_before {childId : JobId}
    (found : ((b.unlist parentId childId).orphan childId).cards id = some card)
    : ∃ old,
        b.cards id = some old
        ∧ card
          = { old with
              parentId := if id = childId then none else old.parentId
              childIds :=
                if id = parentId then old.childIds.filter (· != childId) else old.childIds } := by
  have unlisted {middle : Card} (between : (b.unlist parentId childId).cards id = some middle)
      : ∃ old,
          b.cards id = some old
          ∧ middle
            = { old with
                childIds :=
                  if id = parentId then old.childIds.filter (· != childId) else old.childIds } := by
    rw [unlist_cards] at between
    split at between
    · next same =>
        obtain ⟨old, shown, rfl⟩ := Option.map_eq_some_iff.mp between
        exact ⟨old, same ▸ shown, by rw [if_pos same]⟩
    · next different => exact ⟨middle, between, by rw [if_neg different]⟩
  rw [orphan_cards] at found
  split at found
  · next same =>
      subst same
      obtain ⟨middle, between, rfl⟩ := Option.map_eq_some_iff.mp found
      obtain ⟨old, shown, rfl⟩ := unlisted between
      exact ⟨old, shown, by rw [if_pos rfl]⟩
  · next different =>
      obtain ⟨old, shown, rfl⟩ := unlisted found
      exact ⟨old, shown, by rw [if_neg different]⟩

-----------------------------------------------------------------------------------------
-- The end of an owner
-----------------------------------------------------------------------------------------

theorem adopt_card_after (job : Job) (found : b.cards id = some card)
    : ∃ grown, (b.adopt job).cards id = some grown ∧ card.Grown grown := by
  unfold adopt
  cases job.parentId with
  | none => exact ⟨card, found, .refl card⟩
  | some parentId =>
      simp only [addChild_cards]
      split
      · next same =>
          rw [← same, found]
          refine ⟨_, rfl, ?_⟩
          dsimp only
          split
          · exact .refl card
          · exact ⟨[job.id], rfl⟩
      · exact ⟨card, found, .refl card⟩

theorem adopt_card_before {grown : Card} (found : (b.adopt job).cards id = some grown)
    : ∃ card,
        b.cards id = some card
        ∧ (grown = card
          ∨ job.parentId = some id
            ∧ job.id ∉ card.childIds
            ∧ grown = { card with childIds := card.childIds ++ [job.id] }) := by
  unfold adopt at found
  cases parent : job.parentId with
  | none =>
      rw [parent] at found
      exact ⟨grown, found, .inl rfl⟩
  | some parentId =>
      rw [parent] at found
      obtain ⟨old, shown, same | ⟨rfl, unlisted, same⟩⟩ := addChild_cards_some found
      · exact ⟨old, shown, .inl same⟩
      · exact ⟨old, shown, .inr ⟨rfl, unlisted, same⟩⟩

/-- A retained card survives the end of an owner; it may list the admitted job. -/
theorem OwnerEnds.card_after {owner : Job} {admitted : List Job}
    (ends : b.OwnerEnds owner now admitted after) (found : b.cards id = some card)
    : ∃ grown, after.cards id = some grown ∧ card.Grown grown := by
  cases ends with
  | keyless => exact ⟨card, found, .refl card⟩
  | dropped => exact ⟨card, found, .refl card⟩
  | job own stored counted prepared absent =>
      rename_i next _
      have different : id ≠ next.id := by
        rintro rfl
        rw [found] at absent
        cases absent
      rw [keep_cards, put_cards_ne different]
      exact adopt_card_after next found
  | flow own kept prepared absent =>
      rename_i flow
      rw [keep_cards, putAll_cards_of_notMem]
      · exact ⟨card, found, .refl card⟩
      · intro member
        obtain ⟨job, inFlow, rfl⟩ := List.mem_map.mp member
        rw [absent job inFlow] at found
        cases found

/-- A card after the end of an owner was there before, or is that of an admitted job. -/
theorem OwnerEnds.card_before {owner : Job} {admitted : List Job}
    (ends : b.OwnerEnds owner now admitted after) (found : after.cards id = some card)
    : (∃ old,
        b.cards id = some old
        ∧ (card = old
          ∨ ∃ next ∈ admitted,
              next.parentId = some id
              ∧ next.id ∉ old.childIds
              ∧ card = { old with childIds := old.childIds ++ [next.id] }))
      ∨ ∃ job ∈ admitted, job.id = id ∧ card = job.freshCard ∧ b.cards id = none := by
  cases ends with
  | keyless => exact .inl ⟨card, found, .inl rfl⟩
  | dropped => exact .inl ⟨card, found, .inl rfl⟩
  | job own stored counted prepared absent =>
      rename_i next _
      rw [keep_cards, put_cards] at found
      split at found
      · next same =>
          obtain rfl := Option.some.inj found
          exact .inr ⟨_, List.mem_singleton_self _, same.symm, rfl, by rw [same]; exact absent⟩
      · obtain ⟨old, shown, same | ⟨named, unlisted, same⟩⟩ := adopt_card_before found
        · exact .inl ⟨old, shown, .inl same⟩
        · exact .inl ⟨old, shown, .inr ⟨_, List.mem_singleton_self _, named, unlisted, same⟩⟩
  | flow own kept prepared absent =>
      rename_i flow
      rw [keep_cards] at found
      by_cases member : id ∈ (flow.parent :: flow.children).map Job.id
      · obtain ⟨job, inFlow, same, shown⟩ := putAll_cards_of_mem (b := b) member
        rw [shown] at found
        obtain rfl := Option.some.inj found
        refine .inr ⟨job, inFlow, same, rfl, ?_⟩
        rw [← same]
        exact absent job inFlow
      · rw [putAll_cards_of_notMem member] at found
        exact .inl ⟨card, found, .inl rfl⟩

/-- Only jobs with free ids are admitted. -/
theorem OwnerEnds.absent {owner : Job} {admitted : List Job}
    (ends : b.OwnerEnds owner now admitted after)
    : ∀ job ∈ admitted, b.cards job.id = none := by
  cases ends with
  | keyless => simp
  | dropped => simp
  | job own stored counted prepared absent => simpa using absent
  | flow own kept prepared absent => exact absent

/-- What is still kept after the end of an owner was kept before. -/
theorem OwnerEnds.kept {owner : Job} {admitted : List Job}
    (ends : b.OwnerEnds owner now admitted after)
    : (∀ {key job}, after.next key = some job → b.next key = some job)
      ∧ ∀ {key flow}, after.nextFlows key = some flow → b.nextFlows key = some flow := by
  have keeps {c : Board} {ended : String} {flow : Option JobFlow} (sameNext : c.next = b.next)
      (sameFlows : c.nextFlows = b.nextFlows)
      (within : ∀ stored, flow = some stored → b.nextFlows ended = some stored)
      : (∀ {key job}, (c.keep ended none flow).next key = some job → b.next key = some job)
        ∧ ∀ {key flow'},
            (c.keep ended none flow).nextFlows key = some flow' → b.nextFlows key = some flow' := by
    constructor
    · intro key job stored
      simp only [keep, sameNext, Function.update_apply] at stored
      split at stored
      · cases stored
      · exact stored
    · intro key stored kept
      simp only [keep, sameFlows, Function.update_apply] at kept
      split at kept
      · next same => exact same ▸ within stored kept
      · exact kept
  cases ends with
  | keyless => exact ⟨id, id⟩
  | dropped => exact keeps rfl rfl (by simp)
  | job own stored counted prepared absent =>
      refine keeps ?_ ?_ (fun _ same => same)
      · rw [put_next, adopt_next]
      · rw [put_nextFlows, adopt_nextFlows]
  | flow own kept prepared absent => exact keeps putAll_next putAll_nextFlows (by simp)

-----------------------------------------------------------------------------------------
-- Submissions
-----------------------------------------------------------------------------------------

theorem enter_card_after {replaced : Option JobId} (found : b.cards id = some card)
    (admits : b.Admits now replaced job) (kept : replaced ≠ some id)
    : (b.enter replaced job).cards id = some card := by
  have different : id ≠ job.id := by
    rintro rfl
    rcases admits.absent with absent | same
    · rw [found] at absent
      cases absent
    · exact kept same
  unfold enter
  rw [put_cards_ne different, without_cards_of_notMem kept, found]

theorem enter_card_before {replaced : Option JobId}
    (found : (b.enter replaced job).cards id = some card)
    : id = job.id ∧ card = job.freshCard
      ∨ id ≠ job.id ∧ replaced ≠ some id ∧ b.cards id = some card := by
  unfold enter at found
  rw [put_cards] at found
  split at found
  · next same =>
      obtain rfl := Option.some.inj found
      exact .inl ⟨same, rfl⟩
  · next different =>
      obtain ⟨kept, shown⟩ := without_cards_some found
      exact .inr ⟨different, kept, shown⟩

-----------------------------------------------------------------------------------------
-- Flow submissions
-----------------------------------------------------------------------------------------

variable {submittedParent : Bool} {children : List Job} {existingIds : List JobId}
  {p : FlowPlan} {parentCard : Card}

/-- The parent is neither attached to itself nor inserted as its own child. -/
theorem Gathers.parent_apart
    (gathers : b.Gathers now submittedParent parentId children existingIds p)
    : parentId ∉ p.attached ∧ parentId ∉ p.inserted.map Job.id := by
  refine ⟨fun member => gathers.records.apart (gathers.attached parentId member).1, ?_⟩
  intro member
  obtain ⟨child, inserted, same⟩ := List.mem_map.mp member
  exact gathers.records.apart
    (same ▸ List.mem_map_of_mem (gathers.inserted child inserted).1)

theorem Gathers.parent_card
    (gathers : b.Gathers now submittedParent parentId children existingIds p)
    : (p.filled parentId parentCard).cards parentId = some parentCard := by
  obtain ⟨unattached, uninserted⟩ := gathers.parent_apart
  unfold FlowPlan.filled
  rw [putAll_cards_of_notMem uninserted, attach_cards_of_notMem unattached, put_cards_self]

theorem Gathers.inserted_card
    (gathers : b.Gathers now submittedParent parentId children existingIds p)
    (member : job ∈ p.inserted)
    : (p.filled parentId parentCard).cards job.id = some job.freshCard :=
  putAll_cards_of_nodup gathers.distinct member

/-- A retained card other than the parent's only joins the parent. -/
theorem Gathers.card_after
    (gathers : b.Gathers now submittedParent parentId children existingIds p)
    (found : p.sifted.cards id = some card) (different : id ≠ parentId)
    : (id ∉ p.attached ∧ (p.filled parentId parentCard).cards id = some card)
      ∨ id ∈ p.attached
        ∧ (p.filled parentId parentCard).cards id
          = some { card with parentId := some parentId } := by
  have uninserted : id ∉ p.inserted.map Job.id := by
    intro member
    obtain ⟨child, inserted, rfl⟩ := List.mem_map.mp member
    have absent := gathers.sifts.retimes.cards_none.mpr (gathers.inserted child inserted).2.1
    rw [found] at absent
    cases absent
  have written : (p.sifted.put parentId parentCard).cards id = some card := by
    rw [put_cards_ne different, found]
  unfold FlowPlan.filled
  rw [putAll_cards_of_notMem uninserted]
  by_cases attached : id ∈ p.attached
  · refine .inr ⟨attached, ?_⟩
    rw [attach_cards_of_mem attached, written]
    rfl
  · refine .inl ⟨attached, ?_⟩
    rw [attach_cards_of_notMem attached, written]

/-- The cards of a filled plan: the parent's, retained ones, and those of admitted children. -/
theorem Gathers.card_before
    (gathers : b.Gathers now submittedParent parentId children existingIds p)
    (found : (p.filled parentId parentCard).cards id = some card)
    : id = parentId ∧ card = parentCard
      ∨ (∃ old,
          p.sifted.cards id = some old
          ∧ id ≠ parentId
          ∧ (id ∉ p.attached ∧ card = old
            ∨ id ∈ p.attached ∧ card = { old with parentId := some parentId }))
      ∨ ∃ child ∈ p.inserted, child.id = id ∧ card = child.freshCard := by
  by_cases isParent : id = parentId
  · subst isParent
    rw [gathers.parent_card] at found
    exact .inl ⟨rfl, (Option.some.inj found).symm⟩
  · unfold FlowPlan.filled at found
    by_cases member : id ∈ p.inserted.map Job.id
    · obtain ⟨child, inserted, same, shown⟩ :=
        putAll_cards_of_mem
          (b := (p.sifted.put parentId parentCard).attach parentId p.attached) member
      rw [shown] at found
      exact .inr (.inr ⟨child, inserted, same, (Option.some.inj found).symm⟩)
    · rw [putAll_cards_of_notMem member] at found
      obtain ⟨old, shown, status⟩ := attach_cards_some found
      rw [put_cards_ne isParent] at shown
      exact .inr (.inl ⟨old, shown, isParent, status⟩)

@[simp] theorem filled_next : (p.filled parentId parentCard).next = p.sifted.next := by
  unfold FlowPlan.filled
  rw [putAll_next]
  rfl

@[simp] theorem filled_nextFlows
    : (p.filled parentId parentCard).nextFlows = p.sifted.nextFlows := by
  unfold FlowPlan.filled
  rw [putAll_nextFlows]
  rfl

end Board

-----------------------------------------------------------------------------------------
-- Generated ids and repeat successors
-----------------------------------------------------------------------------------------

namespace InMemoryJobQueueState

variable {s : InMemoryJobQueueState} {op : Op} {id : JobId} {now : DateTime}

/-- A generated id is not on the board. -/
theorem absent_of_fresh (fresh : FreshIds s op) (generated : id ∈ op.generatedIds)
    : s.board.cards id = none := by
  rw [board_cards_none]
  by_contra some
  obtain ⟨job, found⟩ := Option.ne_none_iff_exists'.mp some
  refine (fresh.2 id generated).1 ?_
  unfold mentionedIds
  refine List.mem_append_left _ (List.mem_append_left _ (List.mem_flatMap.mpr ?_))
  refine ⟨job, JobMap.mem_values_of_get found, ?_⟩
  rw [← JobMap.get_id found]
  exact List.mem_cons_self

/-- The next occurrence of a repeat job starts over under the generated id. -/
structure Succeeds (job next : Job) (uuid : JobId) : Prop where
  id : next.id = uuid
  submitted : Submitted next
  repeatKey : next.repeatKey = job.repeatKey
  deduplication : jobDeduplicationId next = jobDeduplicationId job

theorem succeeds_nextRepeatJob {cron : Cron} {job next : Job} {uuid : JobId}
    (scheduled : nextRepeatJob cron job now uuid = .ok (some next))
    : Succeeds job next uuid := by
  unfold nextRepeatJob at scheduled
  split at scheduled
  · cases scheduled
  · simp only at scheduled
    split at scheduled
    · cases scheduled
    · split at scheduled
      · cases scheduled
      · cases scheduled
      · next scheduledAt _ =>
          split at scheduled
          · cases scheduled
          · obtain rfl := Option.some.inj (Except.ok.inj scheduled)
            exact ⟨rfl, ⟨rfl, rfl, stateAfterDependencies_phase _ _, rfl⟩, rfl, rfl⟩

/-- The end of an owner that admits nobody leaves every card as it is. -/
theorem cards_of_ownerEnds_nil {b after : Board} {owner : Job}
    (ends : b.OwnerEnds owner now [] after)
    : after.cards = b.cards := by
  cases ends with
  | keyless => rfl
  | dropped => rfl

end InMemoryJobQueueState

end Lane
